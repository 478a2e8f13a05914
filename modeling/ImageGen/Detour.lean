-- Detours in a relation: edges that led to a source lead to the end of a new
-- chain instead, which leads down to the sources.
import Mathlib.Logic.Relation

namespace image_gen.detour

open Relation

variable {α : Type} {R R' : α → α → Prop} {New Source : α → Prop} {rank : α → Nat}

def Acyclic (R : α → α → Prop) : Prop := ∀ a, ¬ TransGen R a a

theorem acyclic_of_rank (rank : α → Nat) (h : ∀ a b, R a b → rank b < rank a) : Acyclic R := by
  have hlt : ∀ a b, TransGen R a b → rank b < rank a := by
    intro a b hab
    induction hab with
    | single hedge => exact h _ _ hedge
    | tail _ hedge ih =>
      have hlast := h _ _ hedge
      omega
  intro a ha
  have hself := hlt a a ha
  omega

/-- `R'` is `R` with the new chain in front of the sources. -/
structure Detour (R R' : α → α → Prop) (New Source : α → Prop) (rank : α → Nat) : Prop where
  old_source : ∀ s, Source s → ¬ New s
  /-- An edge of an old node stays, or it has led to a source. -/
  old : ∀ a b, ¬ New a → R' a b → R a b ∨ New b ∧ ∃ s, Source s ∧ R a s
  new : ∀ a b, New a → R' a b → New b ∧ rank b < rank a ∨ Source b
  /-- No edge is lost. -/
  kept : ∀ a b, R a b → R' a b ∨ ∃ k, New k ∧ R' a k
  down : ∀ k s, New k → Source s → TransGen R' k s

namespace Detour

variable (d : Detour R R' New Source rank)
include d

/-- What a source leads to is old, and it has led there before. -/
theorem from_source (hsource : ∀ s t, Source s → Source t → ¬ TransGen R s t)
    (hnew : ∀ s k, Source s → New k → ¬ TransGen R s k) {s a : α} (hs : Source s)
    (h : ReflTransGen R' s a) : ¬ New a ∧ ReflTransGen R s a := by
  induction h with
  | refl => exact ⟨d.old_source s hs, .refl⟩
  | tail _ hedge ih =>
    obtain ⟨hold, hpath⟩ := ih
    rcases d.old _ _ hold hedge with hR | ⟨-, t, ht, hR⟩
    · exact ⟨fun hk => hnew s _ hs hk (.tail' hpath hR), hpath.tail hR⟩
    · exact absurd (.tail' hpath hR) (hsource s t hs ht)

/-- What a new node leads to is a lower one, or a source leads there. -/
theorem from_new {k a : α} (hk : New k) (h : TransGen R' k a) :
    New a ∧ rank a < rank k ∨ ∃ s, Source s ∧ ReflTransGen R' s a := by
  induction h with
  | single hedge =>
    rcases d.new _ _ hk hedge with hlow | hs
    · exact Or.inl hlow
    · exact Or.inr ⟨_, hs, .refl⟩
  | tail _ hedge ih =>
    rcases ih with ⟨hnew, hlt⟩ | ⟨s, hs, hpath⟩
    · rcases d.new _ _ hnew hedge with ⟨hnext, hlow⟩ | hs
      · exact Or.inl ⟨hnext, by omega⟩
      · exact Or.inr ⟨_, hs, .refl⟩
    · exact Or.inr ⟨s, hs, hpath.tail hedge⟩

/-- A detour closes a cycle exactly when a source has led to a new node. -/
theorem acyclic_iff (hacyclic : Acyclic R)
    (hsource : ∀ s t, Source s → Source t → ¬ TransGen R s t) :
    Acyclic R' ↔ ∀ s k, Source s → New k → ¬ TransGen R s k := by
  constructor
  · intro hR' s k hs hk hpath
    -- the path leads to `k` still, or a detour takes it to the chain before that
    have hchain : ∀ a, TransGen R s a → TransGen R' s a ∨ ∃ k', New k' ∧ TransGen R' s k' := by
      intro a ha
      induction ha with
      | single hedge =>
        rcases d.kept _ _ hedge with h | ⟨k', hk', h⟩
        · exact Or.inl (.single h)
        · exact Or.inr ⟨k', hk', .single h⟩
      | tail _ hedge ih =>
        rcases ih with hto | hto
        · rcases d.kept _ _ hedge with h | ⟨k', hk', h⟩
          · exact Or.inl (hto.tail h)
          · exact Or.inr ⟨k', hk', hto.tail h⟩
        · exact Or.inr hto
    obtain ⟨k', hk', hto⟩ : ∃ k', New k' ∧ TransGen R' s k' := by
      rcases hchain k hpath with h | h
      · exact ⟨k, hk, h⟩
      · exact h
    exact hR' s (hto.trans (d.down k' s hk' hs))
  · intro hnew a hcycle
    have hno : ∀ k, New k → ¬ TransGen R' k k := by
      intro k hk h
      rcases d.from_new hk h with ⟨-, hlt⟩ | ⟨s, hs, hpath⟩
      · omega
      · exact (d.from_source hsource hnew hs hpath).1 hk
    -- no node on the cycle is new, so it is a cycle of `R`
    have hback : ∀ b, TransGen R' a b → ReflTransGen R' b a → TransGen R a b := by
      intro b hab
      induction hab with
      | single hedge =>
        intro hba
        have ha : ¬ New a := fun hk => hno a hk (.head' hedge hba)
        rcases d.old _ _ ha hedge with h | ⟨hb, -⟩
        · exact .single h
        · exact absurd (.tail' hba hedge) (hno _ hb)
      | @tail b c hab hedge ih =>
        intro hca
        have hb : ¬ New b := fun hk => hno b hk (.head' hedge (hca.trans hab.to_reflTransGen))
        rcases d.old _ _ hb hedge with h | ⟨hc, -⟩
        · exact (ih (.head hedge hca)).tail h
        · exact absurd (.tail' (hca.trans hab.to_reflTransGen) hedge) (hno _ hc)
    exact hacyclic a (hback a hcycle .refl)

end Detour

end image_gen.detour

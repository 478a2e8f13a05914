-- Pointers that are followed to the end of their way, and dictionaries of
-- pointers in which each one is replaced by the end of its way.
import Mathlib.Logic.Relation
import ImageGen.PyDict

namespace image_gen.pointers

open image_gen.py_dict
open Relation

/-! ## Ways -/

section Ways

variable {α : Type} {next next' next'' : α → Option α}

/-- So many pointers lead to an end, which has none. -/
inductive Ends (next : α → Option α) : ℕ → α → α → Prop
  | here {a : α} : next a = none → Ends next 0 a a
  | step {n : ℕ} {a b e : α} : next a = some b → Ends next n b e → Ends next (n + 1) a e

def Reaches (next : α → Option α) : α → α → Prop := ReflTransGen fun a b => next a = some b

theorem Ends.unique {n m : ℕ} {a e e' : α} (h : Ends next n a e) (h' : Ends next m a e') :
    n = m ∧ e = e' := by
  induction h generalizing m with
  | here hnone =>
    cases h' with
    | here _ => exact ⟨rfl, rfl⟩
    | step hsome _ =>
      rw [hnone] at hsome
      cases hsome
  | step hsome _ ih =>
    cases h' with
    | here hnone =>
      rw [hnone] at hsome
      cases hsome
    | step hsome' hrest =>
      obtain rfl := Option.some.inj (hsome.symm.trans hsome')
      obtain ⟨rfl, rfl⟩ := ih hrest
      exact ⟨rfl, rfl⟩

theorem Ends.along {n : ℕ} {a c e : α} (h : Ends next n a e) (hreach : Reaches next a c) :
    ∃ m ≤ n, Ends next m c e := by
  induction hreach using ReflTransGen.head_induction_on generalizing n with
  | refl => exact ⟨n, Nat.le_refl n, h⟩
  | head hedge _ ih =>
    cases h with
    | here hnone =>
      rw [hnone] at hedge
      cases hedge
    | @step k _ _ _ hsome hrest =>
      obtain rfl := Option.some.inj (hedge.symm.trans hsome)
      obtain ⟨m, hm, hends⟩ := ih hrest
      exact ⟨m, by omega, hends⟩

/-- The new pointers leave out parts of the old ways. -/
structure Shortens (next next' : α → Option α) : Prop where
  none : ∀ a, next a = .none → next' a = .none
  some : ∀ a b, next a = .some b → ∃ c, next' a = .some c ∧ Reaches next b c

theorem shortens_refl : Shortens next next := ⟨fun _ h => h, fun _ b h => ⟨b, h, .refl⟩⟩

theorem Shortens.reaches (h : Shortens next next') {a c : α} (hreach : Reaches next' a c) :
    Reaches next a c := by
  induction hreach with
  | refl => exact .refl
  | @tail b c _ hedge ih =>
    cases hb : next b with
    | none =>
      rw [h.none b hb] at hedge
      cases hedge
    | some d =>
      obtain ⟨c', hc', hrest⟩ := h.some b d hb
      obtain rfl := Option.some.inj (hedge.symm.trans hc')
      exact ih.trans (.head hb hrest)

theorem Shortens.trans (h : Shortens next next') (h' : Shortens next' next'') :
    Shortens next next'' := by
  refine ⟨fun a ha => h'.none a (h.none a ha), fun a b hb => ?_⟩
  obtain ⟨c, hc, hbc⟩ := h.some a b hb
  obtain ⟨d, hd, hcd⟩ := h'.some a c hc
  exact ⟨d, hd, ReflTransGen.trans hbc (h.reaches hcd)⟩

theorem Shortens.ends (h : Shortens next next') {n : ℕ} {a e : α} (hends : Ends next n a e) :
    ∃ m, Ends next' m a e := by
  induction n using Nat.strongRecOn generalizing a with
  | ind n ih =>
    cases hends with
    | here hnone => exact ⟨0, .here (h.none _ hnone)⟩
    | @step k _ b _ hsome hrest =>
      obtain ⟨c, hc, hbc⟩ := h.some _ b hsome
      obtain ⟨m, hm, hends⟩ := hrest.along hbc
      obtain ⟨m', hends'⟩ := ih m (by omega) hends
      exact ⟨m' + 1, .step hc hends'⟩

theorem Shortens.ends_succ (h : Shortens next next') {n : ℕ} {a e : α}
    (hends : Ends next (n + 1) a e) : ∃ m, Ends next' (m + 1) a e := by
  cases hends with
  | @step _ _ b _ hsome hrest =>
    obtain ⟨c, hc, hbc⟩ := h.some a b hsome
    obtain ⟨m, -, hends⟩ := hrest.along hbc
    obtain ⟨m', hends'⟩ := h.ends hends
    exact ⟨m', .step hc hends'⟩

end Ways

/-! ## Dictionaries of pointers -/

section Dictionaries

variable {κ α : Type} [DecidableEq κ] (key : α → κ)

/-- The pointer of what has this key. -/
def pointer (d : List (κ × α)) (a : α) : Option α := d.lookup (key a)

theorem length_unvisited_lt {d : List (κ × α)} {visited : List κ} {k : κ} {b : α}
    (h : d.lookup k = some b) (hk : k ∉ visited) :
    (d.filter fun e => e.1 ∉ k :: visited).length < (d.filter fun e => e.1 ∉ visited).length := by
  have hsplit : (d.filter fun e => e.1 ∉ k :: visited) =
      (d.filter fun e => e.1 ∉ visited).filter fun e => e.1 ≠ k := by
    rw [List.filter_filter]
    refine List.filter_congr fun e _ => ?_
    simp
  have hin : (k, b) ∈ d.filter fun e => e.1 ∉ visited :=
    List.mem_filter.mpr ⟨mem_of_lookup_eq h, by simpa using hk⟩
  rw [hsplit, List.length_filter_lt_length_iff_exists]
  exact ⟨_, hin, by simp⟩

/-- The end of a way, or the first key on it that was visited before. -/
def follow (d : List (κ × α)) (visited : List κ) (a : α) : α :=
  match _h : d.lookup (key a) with
  | some b => if _hk : key a ∈ visited then a else follow d (key a :: visited) b
  | none => a
termination_by (d.filter fun e => e.1 ∉ visited).length
decreasing_by exact length_unvisited_lt _h _hk

/-- Each pointer in turn gives way to the end of its way. -/
def compress (d : List (κ × α)) : List (κ × α) :=
  (d.map (·.1)).foldl (fun d k =>
    match d.lookup k with
    | some a => set d k (follow key d [k] a)
    | none => d) d

variable {key} {d : List (κ × α)}

theorem follow_some {visited : List κ} {a b : α} (h : d.lookup (key a) = some b)
    (hk : key a ∉ visited) : follow key d visited a = follow key d (key a :: visited) b := by
  rw [follow]
  split
  · next b' hb' =>
    obtain rfl := Option.some.inj (h.symm.trans hb')
    rw [dif_neg hk]
  · next hnone =>
    rw [h] at hnone
    cases hnone

theorem follow_none {visited : List κ} {a : α} (h : d.lookup (key a) = none) :
    follow key d visited a = a := by
  rw [follow]
  split
  · next b hb =>
    rw [h] at hb
    cases hb
  · rfl

/-- A way that ends is followed to the end. What was visited lies before it. -/
theorem follow_eq {n : ℕ} {visited : List κ} {a e : α} (h : Ends (pointer key d) n a e)
    (hv : ∀ k ∈ visited, ∃ c m e', key c = k ∧ n < m ∧ Ends (pointer key d) m c e') :
    follow key d visited a = e := by
  induction h generalizing visited with
  | here hnone => exact follow_none hnone
  | @step n a b e hsome hrest ih =>
    have hk : key a ∉ visited := by
      intro hin
      obtain ⟨c, m, e', hc, hlt, hends⟩ := hv (key a) hin
      have hnext : pointer key d c = some b := by
        unfold pointer
        rw [hc]
        exact hsome
      cases hends with
      | here _ => omega
      | step hb hrest' =>
        obtain rfl := Option.some.inj (hnext.symm.trans hb)
        have hsame := (hrest.unique hrest').1
        omega
    rw [follow_some hsome hk]
    refine ih fun k hin => ?_
    rcases List.mem_cons.mp hin with rfl | hin
    · exact ⟨a, n + 1, e, rfl, by omega, .step hsome hrest⟩
    · obtain ⟨c, m, e', hc, hlt, hends⟩ := hv k hin
      exact ⟨c, m, e', hc, by omega, hends⟩

theorem reaches_follow (d : List (κ × α)) (visited : List κ) (a : α) :
    Reaches (pointer key d) a (follow key d visited a) := by
  induction visited, a using follow.induct key d with
  | case1 visited a b h hk =>
    rw [follow]
    split
    · rw [dif_pos hk]
      exact .refl
    · exact .refl
  | case2 visited a b h hk ih =>
    rw [follow_some h hk]
    exact .head h ih
  | case3 visited a h =>
    rw [follow_none h]
    exact .refl

theorem shortens_set {k : κ} {a : α} (h : d.lookup k = some a) (visited : List κ) :
    Shortens (pointer key d) (pointer key (set d k (follow key d visited a))) := by
  have hlookup : ∀ c, pointer key (set d k (follow key d visited a)) c =
      if key c = k then some (follow key d visited a) else pointer key d c := by
    intro c
    unfold pointer
    split_ifs with hc
    · rw [hc, lookup_set_self]
    · exact lookup_set_ne d _ hc
  constructor
  · intro c hc
    rw [hlookup, if_neg, hc]
    rintro rfl
    rw [pointer, h] at hc
    cases hc
  · intro c b hb
    rw [hlookup]
    split_ifs with hc
    · subst hc
      obtain rfl := Option.some.inj (h.symm.trans hb)
      exact ⟨_, rfl, reaches_follow d visited a⟩
    · exact ⟨b, hb, .refl⟩

/-- What the turns for some keys do. -/
theorem compress_keys {keys : List κ} (hkeys : keys.Nodup) (d : List (κ × α)) :
    let d' := keys.foldl (fun d k =>
      match d.lookup k with
      | some a => set d k (follow key d [k] a)
      | none => d) d
    Shortens (pointer key d) (pointer key d') ∧
      (∀ k ∉ keys, d'.lookup k = d.lookup k) ∧
      ∀ c n e, key c ∈ keys → Ends (pointer key d) (n + 1) c e → d'.lookup (key c) = some e := by
  induction keys generalizing d with
  | nil => exact ⟨shortens_refl, fun _ _ => rfl, nofun⟩
  | cons k keys ih =>
    obtain ⟨hnot, hnodup⟩ := List.nodup_cons.mp hkeys
    cases hk : d.lookup k with
    | none =>
      obtain ⟨hshort, hother, hends⟩ := ih hnodup d
      simp only [List.foldl_cons, hk]
      refine ⟨hshort, fun k' hk' => hother k' fun hin => hk' (List.mem_cons_of_mem _ hin), ?_⟩
      intro c n e hc h
      rcases List.mem_cons.mp hc with hc | hc
      · cases h with
        | step hsome _ =>
          rw [pointer, hc, hk] at hsome
          cases hsome
      · exact hends c n e hc h
    | some a =>
      have hset : Shortens (pointer key d) _ := shortens_set hk [k]
      obtain ⟨hshort, hother, hends⟩ := ih hnodup (set d k (follow key d [k] a))
      simp only [List.foldl_cons, hk]
      refine ⟨hset.trans hshort, fun k' hk' => ?_, ?_⟩
      · rw [hother k' fun hin => hk' (List.mem_cons_of_mem _ hin)]
        exact lookup_set_ne d _ fun heq => hk' (heq ▸ List.mem_cons_self)
      · intro c n e hc h
        rcases List.mem_cons.mp hc with hc | hc
        · rw [hc, hother k hnot, lookup_set_self]
          cases h with
          | step hsome hrest =>
            have hb : d.lookup (key c) = some a := hc ▸ hk
            obtain rfl := Option.some.inj (hb.symm.trans hsome)
            refine congrArg some (follow_eq hrest fun k' hk' => ?_)
            exact ⟨c, n + 1, e, by rw [hc, List.mem_singleton.mp hk'], by omega, .step hsome hrest⟩
        · obtain ⟨m, hm⟩ := hset.ends_succ h
          exact hends c m e hc hm

theorem compress_spec {d : List (κ × α)} (hd : (d.map (·.1)).Nodup) :
    Shortens (pointer key d) (pointer key (compress key d)) ∧
      ∀ c n e, Ends (pointer key d) (n + 1) c e →
        (compress key d).lookup (key c) = some e := by
  obtain ⟨hshort, -, hends⟩ := @compress_keys κ α _ key _ hd d
  refine ⟨hshort, fun c n e h => hends c n e ?_ h⟩
  cases h with
  | step hsome _ => exact List.mem_map_of_mem (mem_of_lookup_eq hsome)

end Dictionaries

end image_gen.pointers

-- Dictionaries with the order of insertion, as lists of pairs. A lookup is the
-- `lookup` of lists.
import Mathlib.Data.List.Dedup
import Mathlib.Data.List.Induction

namespace image_gen.py_dict

variable {κ α : Type} [DecidableEq κ]

/-- `d[key] = value`: an old key keeps its place, a new one comes last. -/
def set : List (κ × α) → κ → α → List (κ × α)
  | [], key, value => [(key, value)]
  | (k, v) :: rest, key, value =>
    if k = key then (key, value) :: rest else (k, v) :: set rest key value

/-- `d.update(patch)`. -/
def update (d patch : List (κ × α)) : List (κ × α) :=
  patch.foldl (fun d e => set d e.1 e.2) d

/-- `del d[key]`. -/
def delete (d : List (κ × α)) (key : κ) : List (κ × α) := d.filter fun e => e.1 ≠ key

/-- The entries whose keys pass a test. -/
def restrict (K : κ → Bool) (d : List (κ × α)) : List (κ × α) := d.filter fun e => K e.1

/-! ## One key -/

theorem lookup_cons_ne {k key : κ} (value : α) (d : List (κ × α)) (h : k ≠ key) :
    List.lookup k ((key, value) :: d) = d.lookup k := by
  have hbeq : (k == key) = false := beq_eq_false_iff_ne.mpr h
  simp [List.lookup_cons, hbeq]

theorem lookup_set_self (d : List (κ × α)) (key : κ) (value : α) :
    (set d key value).lookup key = some value := by
  induction d with
  | nil => simp [set]
  | cons e rest ih =>
    by_cases h : e.1 = key
    · simp [set, h]
    · simp only [set, h, ↓reduceIte]
      rw [lookup_cons_ne _ _ (Ne.symm h), ih]

theorem lookup_set_ne (d : List (κ × α)) {key k : κ} (value : α) (hk : k ≠ key) :
    (set d key value).lookup k = d.lookup k := by
  induction d with
  | nil => exact lookup_cons_ne _ _ hk
  | cons e rest ih =>
    obtain ⟨k', v⟩ := e
    by_cases h : k' = key
    · subst h
      simp only [set, ↓reduceIte]
      rw [lookup_cons_ne _ _ hk, lookup_cons_ne _ _ hk]
    · simp only [set, h, ↓reduceIte]
      by_cases hk' : k = k'
      · simp [hk']
      · rw [lookup_cons_ne _ _ hk', lookup_cons_ne _ _ hk', ih]

theorem forall_key_set {P : κ → Prop} (d : List (κ × α)) (key : κ) (value : α) :
    (∀ e ∈ set d key value, P e.1) ↔ P key ∧ ∀ e ∈ d, P e.1 := by
  induction d with
  | nil => simp [set]
  | cons e rest ih =>
    by_cases h : e.1 = key
    · simp [set, h]
    · simp only [set, h, ↓reduceIte, List.forall_mem_cons, ih]
      exact and_left_comm

/-- A new key comes last. -/
theorem set_of_lookup_none {d : List (κ × α)} {key : κ} (h : d.lookup key = none) (value : α) :
    set d key value = d ++ [(key, value)] := by
  induction d with
  | nil => rfl
  | cons e rest ih =>
    obtain ⟨k, v⟩ := e
    by_cases hk : key = k
    · subst hk
      simp at h
    · rw [lookup_cons_ne _ _ hk] at h
      simp only [set, Ne.symm hk, ↓reduceIte, List.cons_append, ih h]

theorem lookup_of_mem {d : List (κ × α)} (hd : (d.map (·.1)).Nodup) {e : κ × α} (he : e ∈ d) :
    d.lookup e.1 = some e.2 := by
  induction d with
  | nil => cases he
  | cons first rest ih =>
    obtain ⟨hnot, hrest⟩ := List.nodup_cons.mp hd
    rcases List.mem_cons.mp he with rfl | hin
    · obtain ⟨k, v⟩ := e
      simp
    · have hne : e.1 ≠ first.1 := by
        intro heq
        apply hnot
        exact List.mem_map.mpr ⟨e, hin, heq⟩
      obtain ⟨k, v⟩ := first
      rw [lookup_cons_ne v rest hne, ih hrest hin]

theorem mem_of_lookup_eq {d : List (κ × α)} {key : κ} {value : α} (h : d.lookup key = some value) :
    (key, value) ∈ d := by
  induction d with
  | nil => cases h
  | cons e rest ih =>
    obtain ⟨k, v⟩ := e
    by_cases hk : key = k
    · subst hk
      simp only [List.lookup_cons_self, Option.some.injEq] at h
      simp [h]
    · rw [lookup_cons_ne _ _ hk] at h
      exact List.mem_cons_of_mem _ (ih h)

/-- A map over the entries that keeps the keys. -/
theorem lookup_mapEntries {β : Type} (f : κ × α → β) (d : List (κ × α)) (key : κ) :
    (d.map fun e => (e.1, f e)).lookup key = (d.lookup key).map fun value => f (key, value) := by
  induction d with
  | nil => rfl
  | cons e rest ih =>
    obtain ⟨k, v⟩ := e
    by_cases hk : key = k
    · subst hk
      simp
    · rw [List.map_cons, lookup_cons_ne _ _ hk, lookup_cons_ne _ _ hk, ih]

theorem lookup_mapValues {d : List (κ × α)} {key : κ} {value : α} (f : α → α)
    (h : d.lookup key = some value) (hf : f value = value) :
    (d.map fun e => (e.1, f e.2)).lookup key = some value := by
  rw [lookup_mapEntries, h, Option.map_some, hf]

theorem restrict_set {K : κ → Bool} (d : List (κ × α)) {key : κ} (value : α)
    (h : K key = false) : restrict K (set d key value) = restrict K d := by
  induction d with
  | nil => simp [set, restrict, h]
  | cons e rest ih =>
    unfold restrict at ih ⊢
    by_cases hk : e.1 = key
    · simp [set, hk, h]
    · simp only [set, hk, ↓reduceIte, List.filter_cons, ih]

theorem restrict_set_kept {K : κ → Bool} (d : List (κ × α)) {key : κ} (value : α)
    (h : K key = true) : restrict K (set d key value) = set (restrict K d) key value := by
  unfold restrict
  induction d with
  | nil => simp [set, h]
  | cons e rest ih =>
    by_cases hk : e.1 = key
    · simp [set, hk, h]
    · by_cases hK : K e.1 = true
      · simp only [set, hk, ↓reduceIte, List.filter_cons_of_pos, hK, ih]
      · simp only [set, hk, ↓reduceIte, List.filter_cons, hK, Bool.false_eq_true, ih]

/-- A new value is deleted like the old one. -/
theorem delete_set_self (d : List (κ × α)) (key : κ) (value : α) :
    delete (set d key value) key = delete d key := by
  unfold delete
  induction d with
  | nil => simp [set]
  | cons e rest ih =>
    rw [set]
    by_cases hkey : e.1 = key
    · rw [if_pos hkey, List.filter_cons_of_neg (by simp), List.filter_cons_of_neg (by simp [hkey])]
    · rw [if_neg hkey, List.filter_cons_of_pos (by simpa using hkey),
        List.filter_cons_of_pos (by simpa using hkey), ih]

theorem restrict_delete {K : κ → Bool} (d : List (κ × α)) {key : κ} (h : K key = false) :
    restrict K (delete d key) = restrict K d := by
  unfold restrict delete
  rw [List.filter_filter]
  apply List.filter_congr
  intro e _
  by_cases hk : e.1 = key
  · simp [hk, h]
  · simp [hk]

theorem lookup_restrict {K : κ → Bool} (d : List (κ × α)) {key : κ} (h : K key = true) :
    (restrict K d).lookup key = d.lookup key := by
  unfold restrict
  induction d with
  | nil => rfl
  | cons e rest ih =>
    obtain ⟨k, v⟩ := e
    by_cases hk : key = k
    · subst hk
      simp [h]
    · by_cases hK : K k = true
      · simp only [hK, List.filter_cons_of_pos]
        rw [lookup_cons_ne _ _ hk, lookup_cons_ne _ _ hk, ih]
      · simp only [hK, Bool.false_eq_true, not_false_eq_true, List.filter_cons_of_neg]
        rw [lookup_cons_ne _ _ hk, ih]

/-! ## Several keys -/

theorem update_cons (d : List (κ × α)) (e : κ × α) (patch : List (κ × α)) :
    update d (e :: patch) = update (set d e.1 e.2) patch := rfl

theorem lookup_update_of_not_mem (d patch : List (κ × α)) {k : κ} (h : ∀ e ∈ patch, e.1 ≠ k) :
    (update d patch).lookup k = d.lookup k := by
  induction patch generalizing d with
  | nil => rfl
  | cons e rest ih =>
    rw [update_cons, ih _ fun e' he' => h e' (List.mem_cons_of_mem e he'),
      lookup_set_ne _ _ (h e List.mem_cons_self).symm]

theorem update_append (d first second : List (κ × α)) :
    update d (first ++ second) = update (update d first) second := List.foldl_append

/-- A patch that names each key once decides what it names. -/
theorem lookup_update {patch : List (κ × α)} (hk : (patch.map (·.1)).Nodup) (d : List (κ × α))
    (k : κ) : (update d patch).lookup k = (patch.lookup k).or (d.lookup k) := by
  induction patch generalizing d with
  | nil => rfl
  | cons e rest ih =>
    obtain ⟨key, v⟩ := e
    obtain ⟨hnot, hrest⟩ := List.nodup_cons.mp hk
    rw [update_cons]
    by_cases h : k = key
    · subst h
      have hne : ∀ e ∈ rest, e.1 ≠ k :=
        fun e he heq => hnot (List.mem_map.mpr ⟨e, he, heq⟩)
      rw [lookup_update_of_not_mem _ _ hne, lookup_set_self]
      simp
    · rw [ih hrest, lookup_set_ne _ _ h, lookup_cons_ne _ _ h]

theorem restrict_update {K : κ → Bool} (d patch : List (κ × α))
    (h : ∀ e ∈ patch, K e.1 = false) : restrict K (update d patch) = restrict K d := by
  induction patch generalizing d with
  | nil => rfl
  | cons e rest ih =>
    rw [update_cons, ih _ fun e' he' => h e' (List.mem_cons_of_mem e he'),
      restrict_set _ _ (h e List.mem_cons_self)]

/-! ## Grouping -/

/-- Equal entries stay equal under one patch. -/
theorem restrict_update_congr {K : κ → Bool} {d d' : List (κ × α)} (patch : List (κ × α))
    (h : restrict K d = restrict K d') :
    restrict K (update d patch) = restrict K (update d' patch) := by
  induction patch generalizing d d' with
  | nil => exact h
  | cons e rest ih =>
    rw [update_cons, update_cons]
    apply ih
    by_cases hK : K e.1 = true
    · rw [restrict_set_kept d e.2 hK, restrict_set_kept d' e.2 hK, h]
    · rw [Bool.not_eq_true] at hK
      rw [restrict_set d e.2 hK, restrict_set d' e.2 hK, h]

theorem mem_keys_set {d : List (κ × α)} {key : κ} {value : α} {k : κ}
    (h : k ∈ (set d key value).map (·.1)) : k = key ∨ k ∈ d.map (·.1) := by
  induction d with
  | nil => simpa [set] using h
  | cons e rest ih =>
    by_cases he : e.1 = key
    · simp only [set, he, ↓reduceIte, List.map_cons, List.mem_cons] at h
      rcases h with h | h
      · exact .inl h
      · exact .inr (List.mem_cons_of_mem _ h)
    · simp only [set, he, ↓reduceIte, List.map_cons, List.mem_cons] at h
      rcases h with h | h
      · exact .inr (h ▸ List.mem_cons_self)
      · exact (ih h).imp_right (List.mem_cons_of_mem _)

theorem nodup_keys_set {d : List (κ × α)} (hd : (d.map (·.1)).Nodup) (key : κ) (value : α) :
    ((set d key value).map (·.1)).Nodup := by
  induction d with
  | nil => simp [set]
  | cons e rest ih =>
    obtain ⟨hnot, hrest⟩ := List.nodup_cons.mp hd
    by_cases he : e.1 = key
    · simp only [set, he, ↓reduceIte, List.map_cons]
      exact List.nodup_cons.mpr ⟨he ▸ hnot, hrest⟩
    · simp only [set, he, ↓reduceIte, List.map_cons]
      refine List.nodup_cons.mpr ⟨fun hin => ?_, ih hrest⟩
      rcases mem_keys_set hin with heq | hmem
      · exact he heq
      · exact hnot hmem

/-- `d[key] = g(d.get(key, e), x)` for every event of a key and an `x`. -/
def groupBy {β : Type} (e : β) (g : β → α → β) (events : List (κ × α)) : List (κ × β) :=
  events.foldl (fun d ev => set d ev.1 (g ((d.lookup ev.1).getD e) ev.2)) []

theorem groupBy_append {β : Type} (e : β) (g : β → α → β) (events : List (κ × α)) (ev : κ × α) :
    groupBy e g (events ++ [ev]) = set (groupBy e g events) ev.1
      (g (((groupBy e g events).lookup ev.1).getD e) ev.2) := by
  simp [groupBy]

theorem nodup_groupBy {β : Type} (e : β) (g : β → α → β) (events : List (κ × α)) :
    ((groupBy e g events).map (·.1)).Nodup := by
  induction events using List.reverseRecOn with
  | nil => exact List.nodup_nil
  | append_singleton events ev ih =>
    rw [groupBy_append]
    exact nodup_keys_set ih _ _

/-- What the events of one key make of `e`, in their order. -/
theorem lookup_groupBy {β : Type} (e : β) (g : β → α → β) (events : List (κ × α)) (k : κ) :
    (groupBy e g events).lookup k =
      if k ∈ events.map (·.1) then
        some (((events.filter fun ev => ev.1 = k).map (·.2)).foldl g e)
      else none := by
  induction events using List.reverseRecOn with
  | nil => rfl
  | append_singleton events ev ih =>
    rw [groupBy_append]
    by_cases hk : k = ev.1
    · subst hk
      rw [lookup_set_self, ih]
      by_cases hin : ev.1 ∈ events.map (·.1)
      · simp only [hin, if_true, Option.getD_some]
        simp [List.filter_append]
      · have hnone : events.filter (fun ev' => decide (ev'.1 = ev.1)) = [] := by
          rw [List.filter_eq_nil_iff]
          intro ev' hev'
          have hne : ev'.1 ≠ ev.1 := fun heq => hin (List.mem_map.mpr ⟨ev', hev', heq⟩)
          simpa using hne
        simp only [hin, if_false, Option.getD_none]
        simp [List.filter_append, hnone]
    · rw [lookup_set_ne _ _ hk, ih]
      have hne : ¬ ev.1 = k := fun h => hk h.symm
      have hfilter : (events ++ [ev]).filter (fun ev => decide (ev.1 = k)) =
          events.filter fun ev => decide (ev.1 = k) := by
        simp [List.filter_append, hne]
      have hkeys : k ∈ (events ++ [ev]).map (·.1) ↔ k ∈ events.map (·.1) := by
        rw [List.map_append, List.mem_append, List.map_singleton, List.mem_singleton]
        exact or_iff_left hk
      rw [hfilter]
      simp only [hkeys]

/-- The entries of a dictionary that holds `f k` for each of the keys. -/
theorem perm_of_lookup {d : List (κ × α)} {keys : List κ} {f : κ → α}
    (hd : (d.map (·.1)).Nodup)
    (h : ∀ k, d.lookup k = if k ∈ keys then some (f k) else none) :
    d.Perm (keys.dedup.map fun k => (k, f k)) := by
  have hself : d = (d.map (·.1)).map fun k => (k, f k) := by
    rw [List.map_map]
    refine (List.map_id d).symm.trans (List.map_congr_left fun e he => ?_)
    have hlookup := lookup_of_mem hd he
    rw [h] at hlookup
    split_ifs at hlookup
    rw [id, Function.comp, Option.some.inj hlookup]
  have hkeys : (d.map (·.1)).Perm keys.dedup := by
    refine (List.perm_ext_iff_of_nodup hd (List.nodup_dedup keys)).mpr fun k => ?_
    rw [List.mem_dedup]
    constructor
    · intro hk
      obtain ⟨e, he, rfl⟩ := List.mem_map.mp hk
      have hlookup := lookup_of_mem hd he
      rw [h] at hlookup
      by_contra hnot
      rw [if_neg hnot] at hlookup
      cases hlookup
    · intro hk
      have hlookup := h k
      rw [if_pos hk] at hlookup
      exact List.mem_map.mpr ⟨_, mem_of_lookup_eq hlookup, rfl⟩
  rw [hself]
  exact hkeys.map _

/-! ## Distinct keys -/

theorem nodup_update {d : List (κ × α)} (hd : (d.map (·.1)).Nodup)
    (patch : List (κ × α)) : ((update d patch).map (·.1)).Nodup := by
  induction patch generalizing d with
  | nil => exact hd
  | cons e patch ih => exact ih (nodup_keys_set hd e.1 e.2)

theorem update_of_nodup {d patch : List (κ × α)} (h : ((d ++ patch).map (·.1)).Nodup) :
    update d patch = d ++ patch := by
  induction patch generalizing d with
  | nil => exact (List.append_nil d).symm
  | cons e patch ih =>
    have hsplit : d ++ e :: patch = (d ++ [e]) ++ patch := by simp
    have hnew : d.lookup e.1 = none := by
      by_contra hne
      obtain ⟨value, hvalue⟩ := Option.ne_none_iff_exists'.mp hne
      have hin := List.mem_map_of_mem (f := Prod.fst) (mem_of_lookup_eq hvalue)
      rw [List.map_append, List.nodup_append] at h
      exact h.2.2 _ hin _ (List.mem_map_of_mem List.mem_cons_self) rfl
    rw [update_cons, set_of_lookup_none hnew, hsplit]
    exact ih (by rwa [← hsplit])

omit [DecidableEq κ] in
theorem eq_of_perm {d d' : List (κ × α)} (hd : (d'.map (·.1)).Nodup)
    (hkeys : d.map (·.1) = d'.map (·.1)) (h : d.Perm d') : d = d' := by
  induction d' generalizing d with
  | nil => exact h.eq_nil
  | cons e' d' ih =>
    obtain ⟨e, d, rfl⟩ := List.exists_cons_of_ne_nil (l := d) (by rintro rfl; cases hkeys)
    obtain ⟨hname, hrest⟩ := List.cons.inj hkeys
    obtain ⟨hnot, hd'⟩ := List.nodup_cons.mp hd
    have heq : e = e' := by
      rcases List.mem_cons.mp (h.mem_iff.mp List.mem_cons_self) with heq | hin
      · exact heq
      · exact absurd (hname ▸ List.mem_map_of_mem hin) hnot
    subst heq
    rw [ih hd' hrest (h.cons_inv)]

end image_gen.py_dict

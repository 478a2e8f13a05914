-- The table of LoRA fetches (`app/queue/fetches.py`) and the operations on it.
-- At most one row of a version is active: a partial unique index sees to it.
import Mathlib.Data.List.Basic
import Mathlib.Data.List.Nodup

namespace image_gen.fetch_table

inductive FetchStatus
  | pending
  | downloading
  | verifying
  | done
  | failed
  deriving DecidableEq

def allowedTransitions : FetchStatus → List FetchStatus
  | .pending => [.downloading, .failed]
  | .downloading => [.verifying, .failed]
  | .verifying => [.done, .failed]
  | .done => []
  | .failed => []

/-- `pending`, `downloading` or `verifying`. -/
def FetchStatus.Active (s : FetchStatus) : Prop := s ≠ .done ∧ s ≠ .failed

instance (s : FetchStatus) : Decidable s.Active := by unfold FetchStatus.Active; infer_instance

theorem active_of_allowed {s s' : FetchStatus} (h : s' ∈ allowedTransitions s) : s.Active := by
  cases s <;> first | decide | cases h

structure LoraFetch where
  id : String
  url : String
  civitaiModelId : Option Int
  civitaiVersionId : Int
  status : FetchStatus
  progressBytes : Nat
  totalBytes : Option Nat
  destName : Option String
  errorCode : Option String
  errorMessage : Option String
  handover : Bool
  createdAt : Nat
  updatedAt : Nat
  deriving DecidableEq

def LoraFetch.Active (r : LoraFetch) : Prop := r.status.Active

instance (r : LoraFetch) : Decidable r.Active := by unfold LoraFetch.Active; infer_instance

abbrev Table := List LoraFetch

inductive TableError
  /-- `InvalidTransitionError`. -/
  | invalidTransition (current target : FetchStatus)
  /-- `LoraFetchNotFoundError`. -/
  | notFound (id : String)
  /-- `IntegrityError`, of the primary key or the partial index. -/
  | integrity
  deriving DecidableEq

namespace Table

def getById (t : Table) (id : String) : Option LoraFetch := t.find? fun r => r.id = id

def findActiveByVersion (t : Table) (version : Int) : Option LoraFetch :=
  t.find? fun r => r.civitaiVersionId = version ∧ r.Active

def update (t : Table) (id : String) (f : LoraFetch → LoraFetch) : Table :=
  t.map fun r => if r.id = id then f r else r

def newRow (id url : String) (modelId : Option Int) (version : Int) (now : Nat) : LoraFetch where
  id := id
  url := url
  civitaiModelId := modelId
  civitaiVersionId := version
  status := .pending
  progressBytes := 0
  totalBytes := none
  destName := none
  errorCode := none
  errorMessage := none
  handover := false
  createdAt := now
  updatedAt := now

def createPending (t : Table) (id url : String) (modelId : Option Int) (version : Int)
    (now : Nat) : Except TableError (LoraFetch × Table) :=
  if t.any fun r => r.id = id ∨ (r.civitaiVersionId = version ∧ r.Active) then .error .integrity
  else .ok (newRow id url modelId version now, t ++ [newRow id url modelId version now])

/-- A write that asserts the transition first. -/
def transition (t : Table) (id : String) (target : FetchStatus) (f : LoraFetch → LoraFetch) :
    Except TableError Table :=
  match t.getById id with
  | none => .error (.notFound id)
  | some r =>
    if target ∈ allowedTransitions r.status then .ok (t.update id f)
    else .error (.invalidTransition r.status target)

def setStatus (t : Table) (id : String) (target : FetchStatus) (now : Nat) :
    Except TableError Table :=
  t.transition id target fun r => { r with status := target, updatedAt := now }

def setFailed (t : Table) (id errorCode errorMessage : String) (handover : Bool) (now : Nat) :
    Except TableError Table :=
  t.transition id .failed fun r => { r with
    status := .failed
    errorCode := some errorCode
    errorMessage := some errorMessage
    handover := handover
    updatedAt := now }

def setTotalBytes (t : Table) (id : String) (total now : Nat) : Table :=
  t.update id fun r => { r with totalBytes := some total, updatedAt := now }

def setProgress (t : Table) (id : String) (progress now : Nat) : Table :=
  t.update id fun r => { r with progressBytes := progress, updatedAt := now }

def setDestName (t : Table) (id destName : String) (now : Nat) : Table :=
  t.update id fun r => { r with destName := some destName, updatedAt := now }

/-- `scan_non_terminal`. -/
def scanNonTerminal (t : Table) : List LoraFetch :=
  (t.filter fun r => r.Active).mergeSort fun a b => decide (a.updatedAt ≤ b.updatedAt)

/-- The primary key and the partial index. -/
structure Indexed (t : Table) : Prop where
  keyed : (t.map (·.id)).Nodup
  /-- At most one row of a version is active. -/
  unique : ∀ r ∈ t, ∀ r' ∈ t, r.Active → r'.Active →
    r.civitaiVersionId = r'.civitaiVersionId → r = r'

end Table

/-! ## What an operation does to the rows -/

open Table

/-- Rows are inserted as `pending`, and no row takes a step that is not in the
transition table, nor another version. -/
structure Evolves (t t' : Table) : Prop where
  kept : ∀ r ∈ t, ∃ r' ∈ t', r'.id = r.id ∧ r'.civitaiVersionId = r.civitaiVersionId ∧
    (r'.status = r.status ∨ r'.status ∈ allowedTransitions r.status)
  added : ∀ r' ∈ t', (∀ r ∈ t, r.id ≠ r'.id) → r'.status = .pending

theorem evolves_refl (t : Table) : Evolves t t :=
  ⟨fun r hr => ⟨r, hr, rfl, rfl, Or.inl rfl⟩, fun r' hr hne => absurd rfl (hne r' hr)⟩

theorem mem_of_find {t : Table} {id : String} {r : LoraFetch} (h : t.getById id = some r) :
    r ∈ t ∧ r.id = id :=
  ⟨List.mem_of_find?_eq_some h, by simpa using List.find?_some h⟩

theorem getById_update {f : LoraFetch → LoraFetch} (hf : ∀ r, (f r).id = r.id) (t : Table)
    (id : String) : (t.update id f).getById id = (t.getById id).map f := by
  unfold Table.getById Table.update
  have hsame : (fun r : LoraFetch => decide (r.id = id)) ∘ (fun r => if r.id = id then f r else r) =
      fun r => decide (r.id = id) := by
    funext r
    by_cases hr : r.id = id <;> simp [hr, hf]
  rw [List.find?_map, hsame]
  apply Option.map_congr
  intro r hr
  have hid : r.id = id := by simpa using List.find?_some hr
  simp [hid]

theorem transition_allowed {t : Table} {id : String} {target : FetchStatus} {r : LoraFetch}
    {f : LoraFetch → LoraFetch} (h : t.getById id = some r)
    (hallowed : target ∈ allowedTransitions r.status) :
    t.transition id target f = .ok (t.update id f) := by
  rw [Table.transition, h]
  dsimp only
  rw [if_pos hallowed]

theorem transition_refused {t : Table} {id : String} {target : FetchStatus} {r : LoraFetch}
    {f : LoraFetch → LoraFetch} (h : t.getById id = some r)
    (hrefused : target ∉ allowedTransitions r.status) :
    t.transition id target f = .error (.invalidTransition r.status target) := by
  rw [Table.transition, h]
  dsimp only
  rw [if_neg hrefused]

theorem filter_update {f : LoraFetch → LoraFetch} (hf : ∀ r, (f r).id = r.id) (t : Table)
    (id : String) : (t.update id f).filter (fun r => r.id ≠ id) = t.filter fun r => r.id ≠ id := by
  unfold Table.update
  induction t with
  | nil => rfl
  | cons r rest ih =>
    rw [List.map_cons]
    by_cases hr : r.id = id
    · rw [if_pos hr, List.filter_cons_of_neg (by simp [hf, hr]),
        List.filter_cons_of_neg (by simp [hr]), ih]
    · rw [if_neg hr, List.filter_cons_of_pos (by simpa using hr),
        List.filter_cons_of_pos (by simpa using hr), ih]

theorem eq_of_id {t : Table} (h : t.Indexed) {r r' : LoraFetch} (hr : r ∈ t) (hr' : r' ∈ t)
    (hid : r.id = r'.id) : r = r' :=
  List.inj_on_of_nodup_map h.keyed hr hr' hid

/-- What an UPDATE by id must keep. -/
structure Keeps (r r' : LoraFetch) : Prop where
  id : r'.id = r.id
  version : r'.civitaiVersionId = r.civitaiVersionId
  status : r'.status = r.status ∨ r'.status ∈ allowedTransitions r.status

theorem Keeps.active {r r' : LoraFetch} (h : Keeps r r') (ha : r'.Active) : r.Active := by
  rcases h.status with hsame | hallowed
  · unfold LoraFetch.Active at *
    rwa [hsame] at ha
  · exact active_of_allowed hallowed

theorem mem_update {t : Table} {id : String} {f : LoraFetch → LoraFetch} {r' : LoraFetch}
    (h : r' ∈ t.update id f) : ∃ r ∈ t, r' = if r.id = id then f r else r := by
  obtain ⟨r, hr, rfl⟩ := List.mem_map.mp h
  exact ⟨r, hr, rfl⟩

/-- An UPDATE keeps the indexes, and the rows evolve. -/
theorem update_spec {t : Table} (h : t.Indexed) {id : String} {f : LoraFetch → LoraFetch}
    (hf : ∀ r ∈ t, r.id = id → Keeps r (f r)) :
    (t.update id f).Indexed ∧ Evolves t (t.update id f) := by
  have hkeeps : ∀ r ∈ t, Keeps r (if r.id = id then f r else r) := by
    intro r hr
    split
    · rename_i hid
      exact hf r hr hid
    · exact ⟨rfl, rfl, Or.inl rfl⟩
  have hids : (t.update id f).map (·.id) = t.map (·.id) := by
    unfold Table.update
    rw [List.map_map]
    exact List.map_congr_left fun r hr => (hkeeps r hr).id
  refine ⟨⟨hids ▸ h.keyed, ?_⟩, ?_, ?_⟩
  · intro a ha b hb hact hact' hversion
    obtain ⟨r, hr, rfl⟩ := mem_update ha
    obtain ⟨r', hr', rfl⟩ := mem_update hb
    have hsame : r = r' := h.unique r hr r' hr' ((hkeeps r hr).active hact)
      ((hkeeps r' hr').active hact') (by rw [← (hkeeps r hr).version, hversion,
        (hkeeps r' hr').version])
    rw [hsame]
  · intro r hr
    exact ⟨_, List.mem_map_of_mem hr, (hkeeps r hr).id, (hkeeps r hr).version, (hkeeps r hr).status⟩
  · intro r' hr' hnew
    obtain ⟨r, hr, rfl⟩ := mem_update hr'
    exact absurd (hkeeps r hr).id.symm (hnew r hr)

theorem transition_spec {t t' : Table} (h : t.Indexed) {id : String} {target : FetchStatus}
    {f : LoraFetch → LoraFetch} (hid : ∀ r, (f r).id = r.id)
    (hversion : ∀ r, (f r).civitaiVersionId = r.civitaiVersionId)
    (hstatus : ∀ r, (f r).status = target) (hstep : t.transition id target f = .ok t') :
    t'.Indexed ∧ Evolves t t' := by
  unfold Table.transition at hstep
  split at hstep
  · cases hstep
  · rename_i r hr
    obtain ⟨hmem, hrid⟩ := mem_of_find hr
    split at hstep
    · rename_i hallowed
      cases hstep
      refine update_spec h fun r' hr' hid' => ⟨hid r', hversion r', Or.inr ?_⟩
      rw [eq_of_id h hr' hmem (hid'.trans hrid.symm), hstatus]
      exact hallowed
    · cases hstep

theorem createPending_spec {t t' : Table} (h : t.Indexed) {id url : String}
    {modelId : Option Int} {version : Int} {now : Nat} {row : LoraFetch}
    (hstep : t.createPending id url modelId version now = .ok (row, t')) :
    row = newRow id url modelId version now ∧ t' = t ++ [row] ∧ (∀ r ∈ t, r.id ≠ id) ∧
      t'.Indexed ∧ Evolves t t' := by
  unfold Table.createPending at hstep
  split at hstep
  · cases hstep
  rename_i hfree
  simp only [List.any_eq_true, decide_eq_true_eq, not_exists, not_and, not_or] at hfree
  cases hstep
  refine ⟨rfl, rfl, fun r hr => (hfree r hr).1, ⟨?_, ?_⟩, ?_, ?_⟩
  · rw [List.map_append, List.nodup_append]
    refine ⟨h.keyed, List.nodup_singleton _, ?_⟩
    intro a ha b hb hab
    obtain ⟨r, hr, rfl⟩ := List.mem_map.mp ha
    rw [List.map_singleton, List.mem_singleton] at hb
    exact (hfree r hr).1 (hab.trans hb)
  · intro a ha b hb hact hact' hversion
    rcases List.mem_append.mp ha with ha | ha <;> rcases List.mem_append.mp hb with hb | hb
    · exact h.unique a ha b hb hact hact' hversion
    · rw [List.mem_singleton.mp hb] at hversion
      exact absurd hact ((hfree a ha).2 hversion)
    · rw [List.mem_singleton.mp ha] at hversion
      exact absurd hact' ((hfree b hb).2 hversion.symm)
    · rw [List.mem_singleton.mp ha, List.mem_singleton.mp hb]
  · intro r hr
    exact ⟨r, List.mem_append_left _ hr, rfl, rfl, Or.inl rfl⟩
  · intro r' hr' hnew
    rcases List.mem_append.mp hr' with hr' | hr'
    · exact absurd rfl (hnew r' hr')
    · rw [List.mem_singleton.mp hr']
      rfl

theorem findActive_spec {t : Table} {version : Int} {r : LoraFetch}
    (h : t.findActiveByVersion version = some r) :
    r ∈ t ∧ r.civitaiVersionId = version ∧ r.Active := by
  refine ⟨List.mem_of_find?_eq_some h, ?_⟩
  simpa using List.find?_some h

end image_gen.fetch_table

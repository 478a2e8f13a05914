-- The orphan reaper (`app/queue/reaper.py`) beside the gateway. A pass reads
-- the table once, and deletes what it found one object at a time: what is
-- fetched in between is deleted all the same.
import ImageGen.Runs
import ImageGen.JobStore
import ImageGen.Storage

namespace image_gen.reaper

open image_gen.runs image_gen.json image_gen.job_store image_gen.requests image_gen.storage

/-! ## The reaper and the gateway -/

/-- The WHERE clause of a pass that began at `began`. -/
def Reapable (ttl : Int) (began : Nat) (j : Job) : Prop :=
  j.status = .completed ∧ j.fetchedAt = none ∧ (j.updatedAt : Int) < began - ttl

instance (ttl : Int) (began : Nat) (j : Job) : Decidable (Reapable ttl began j) := by
  unfold Reapable; infer_instance

/-- NULL lists nothing. -/
def entries (j : Job) : List String := j.outputKeys.getD []

/-- What a pass goes through: each entry, with the id of its row. -/
def targets (rows : List Job) : List (String × String) :=
  rows.flatMap fun j => (entries j).map fun entry => (j.id, entry)

/-- What the SELECT of a pass gives it to delete. -/
def scanned (ttl : Int) (began : Nat) (s : Store) : List (String × String) :=
  targets (s.filter fun j => decide (Reapable ttl began j))

inductive Pc
  | sleeping
  /-- The cutoff is there, the SELECT is not. -/
  | scanning (began : Nat)
  | deleting (began : Nat) (pending : List (String × String))

/-- A GET of the gateway, and what it answers. -/
inductive Get
  | lookingUp (jobId : String) (index : Nat)
  | reading (jobId entry : String)
  | marking (jobId : String) (data : Bytes)
  | answered (data : Option Bytes)

structure State where
  store : Store
  objects : Objects
  pc : Pc
  /-- The count that `reap_once` returns. -/
  deleted : Nat
  gets : List Get

def start (store : Store) (objects : Objects) : State := ⟨store, objects, .sleeping, 0, []⟩

/-- How `delete_object` ends. One that raises may have deleted. -/
inductive Deletion
  | deleted
  | raised (removed : Bool)

def Deletion.removed : Deletion → Bool
  | .deleted => true
  | .raised removed => removed

def Deletion.count : Deletion → Nat
  | .deleted => 1
  | .raised _ => 0

inductive Label
  | begins (now : Nat)
  | scan
  | delete (outcome : Deletion)
  | ends
  | request (jobId : String) (index : Nat)
  | lookUp (i : Nat)
  | getObject (i : Nat) (fails : Bool)
  | setFetched (i : Nat) (now : Nat)
  | create (id modelName : String) (inputJson : StoredJson) (mode : JobMode)
      (webhookUrl : Option String) (webhookHeaders : Option (List (String × String))) (now : Nat)
  /-- The worker uploads an output. -/
  | upload (a : Address) (data : Bytes)
  /-- A write of the worker, a handler, recovery or the dispatcher. -/
  | write (w : Write) (now : Nat)

/-- The entry that the gateway reads. -/
def lookUp (store : Store) (jobId : String) (index : Nat) : Get :=
  match store.getById jobId with
  | none => .answered none
  | some j =>
    if j.status = .completed then
      match (entries j)[index]? with
      | none => .answered none
      | some entry => .reading jobId entry
    else .answered none

def readObject (objects : Objects) (jobId entry : String) (fails : Bool) : Get :=
  if fails then .answered none
  else
    match objects (partition entry) with
    | none => .answered none
    | some data => .marking jobId data

def next (ttl : Int) (s : State) : Label → Option State
  | .begins now =>
    match s.pc with
    | .sleeping => some { s with pc := .scanning now, deleted := 0 }
    | _ => none
  | .scan =>
    match s.pc with
    | .scanning began =>
      some { s with pc := .deleting began (scanned ttl began s.store) }
    | _ => none
  | .delete outcome =>
    match s.pc with
    | .deleting began ((_, entry) :: pending) =>
      some { s with
        objects := if outcome.removed then deleteObject s.objects (partition entry) else s.objects,
        pc := .deleting began pending,
        deleted := s.deleted + outcome.count }
    | _ => none
  | .ends =>
    match s.pc with
    | .deleting _ [] => some { s with pc := .sleeping }
    | _ => none
  | .request jobId index => some { s with gets := s.gets ++ [.lookingUp jobId index] }
  | .lookUp i =>
    match s.gets[i]? with
    | some (.lookingUp jobId index) =>
      some { s with gets := s.gets.set i (lookUp s.store jobId index) }
    | _ => none
  | .getObject i fails =>
    match s.gets[i]? with
    | some (.reading jobId entry) =>
      some { s with gets := s.gets.set i (readObject s.objects jobId entry fails) }
    | _ => none
  | .setFetched i now =>
    match s.gets[i]? with
    | some (.marking jobId data) =>
      some { s with store := s.store.update jobId (Job.setFetched now),
                    gets := s.gets.set i (.answered (some data)) }
    | _ => none
  | .create id modelName inputJson mode webhookUrl webhookHeaders now =>
    match s.store.createQueued
        (Job.fresh id modelName inputJson mode webhookUrl webhookHeaders now) with
    | .ok store => some { s with store := store }
    | .error _ => some s
  | .upload a data => some { s with objects := putObject s.objects a data }
  | .write w now =>
    match w.apply s.store now with
    | .ok store => some { s with store := store }
    | .error _ => some s

/-! ## The law and its condition -/

/-- What is deleted is listed by a row that the WHERE clause still selects. -/
def DeletesOrphans (ttl : Int) (s : State) : Label → Prop
  | .delete outcome => ∀ began id entry pending, s.pc = .deleting began ((id, entry) :: pending) →
      outcome.removed = true →
        ∃ row, s.store.getById id = some row ∧ entry ∈ entries row ∧ Reapable ttl began row
  | _ => True

/-- The write leaves a row that the pass found as the pass found it: it is no
`set_fetched`, and moves `updated_at` nowhere past the cutoff. -/
def SparesRow (ttl : Int) (began now : Nat) (j : Job) : Write → Prop
  | .setFetched _ => False
  | .markInitialResponseDelivered _ => j.mode = .async → (now : Int) < began - ttl
  | .markResponseDelivered _ => j.mode = .sync → (now : Int) < began - ttl
  | .markAsyncWithHandover _ => (now : Int) < began - ttl
  | .markHandover _ => (now : Int) < began - ttl
  | .setWebhookDeliveryStatus _ _ => (now : Int) < began - ttl
  | _ => True

/-- While the pass has an object of a row to delete, nothing fetches the row or
makes it young again. -/
def Spares (ttl : Int) (s : State) : Label → Prop
  | .setFetched i _ => ∀ jobId data began pending, s.gets[i]? = some (.marking jobId data) →
      s.pc = .deleting began pending → ∀ p ∈ pending, p.1 ≠ jobId
  | .write w now => ∀ began pending, s.pc = .deleting began pending →
      ∀ p ∈ pending, p.1 = w.target → ∀ row, s.store.getById p.1 = some row →
        SparesRow ttl began now row w
  | _ => True

/-! ## One write -/

/-- The four transitions are refused on a completed row. -/
theorem not_transition {s t : Store} {id : String} {row : Job} {final : JobStatus} {f : Job → Job}
    (hrow : s.getById id = some row) (hdone : row.status = .completed) :
    s.transition id final f ≠ .ok t := by
  intro hok
  obtain ⟨j, hj, hallowed, -⟩ := Store.transition_ok hok
  rw [hrow] at hj
  cases hj
  rw [hdone] at hallowed
  cases hallowed

/-- The condition says exactly when a write leaves the WHERE clause true. -/
theorem reapable_change_iff {ttl : Int} {began now : Nat} {s t : Store} {w : Write} {row : Job}
    (hrow : s.getById w.target = some row) (hreap : Reapable ttl began row)
    (h : w.apply s now = .ok t) :
    Reapable ttl began (w.change now row) ↔ SparesRow ttl began now row w := by
  obtain ⟨hdone, hfetched, hold⟩ := hreap
  cases w with
  | setRunning id promptId clientId => exact absurd h (not_transition hrow hdone)
  | setCompleted id outputKeys result => exact absurd h (not_transition hrow hdone)
  | setFailed id errorCode errorMessage => exact absurd h (not_transition hrow hdone)
  | setAbandoned id errorCode => exact absurd h (not_transition hrow hdone)
  | setFetched id => simp [Write.change, Job.setFetched, hfetched, Reapable, SparesRow]
  | markInitialResponseDelivered id =>
    by_cases hmode : row.mode = .async <;>
      simp [Write.change, Job.markInitialResponseDelivered, hmode, Reapable, SparesRow, hdone,
        hfetched, hold]
  | markResponseDelivered id =>
    by_cases hmode : row.mode = .sync <;>
      simp [Write.change, Job.markResponseDelivered, hmode, Reapable, SparesRow, hdone, hfetched,
        hold]
  | markAsyncWithHandover id =>
    simp [Write.change, Job.markAsyncWithHandover, Reapable, SparesRow, hdone, hfetched]
  | markHandover id =>
    simp [Write.change, Job.markHandover, Reapable, SparesRow, hdone, hfetched]
  | setWebhookDeliveryStatus id status =>
    simp [Write.change, Job.setWebhookDeliveryStatus, Reapable, SparesRow, hdone, hfetched]

theorem entries_change {s t : Store} {w : Write} {now : Nat} {row : Job}
    (hrow : s.getById w.target = some row) (hdone : row.status = .completed)
    (h : w.apply s now = .ok t) : entries (w.change now row) = entries row := by
  unfold entries
  cases w with
  | setCompleted id outputKeys result => exact absurd h (not_transition hrow hdone)
  | setFetched id =>
    simp only [Write.change, Job.setFetched]
    split <;> rfl
  | markInitialResponseDelivered id =>
    simp only [Write.change, Job.markInitialResponseDelivered]
    split <;> rfl
  | markResponseDelivered id =>
    simp only [Write.change, Job.markResponseDelivered]
    split <;> rfl
  | _ => rfl

/-! ## Every run -/

/-- The row that a pending entry stands for. -/
def Listed (ttl : Int) (began : Nat) (s : Store) (p : String × String) : Prop :=
  ∃ row, s.getById p.1 = some row ∧ p.2 ∈ entries row ∧ Reapable ttl began row

structure Inv (ttl : Int) (s : State) : Prop where
  keyed : s.store.Keyed
  pending : ∀ began pending, s.pc = .deleting began pending →
    ∀ p ∈ pending, Listed ttl began s.store p

theorem inv_start (ttl : Int) {store : Store} (objects : Objects) (hs : store.Keyed) :
    Inv ttl (start store objects) where
  keyed := hs
  pending began pending h := by cases h

theorem listed_iff {ttl : Int} {began : Nat} {s : Store} (hs : s.Keyed) {p : String × String} :
    p ∈ scanned ttl began s ↔ Listed ttl began s p := by
  constructor
  · intro h
    obtain ⟨row, hrow, hp⟩ := List.mem_flatMap.mp h
    obtain ⟨entry, hentry, rfl⟩ := List.mem_map.mp hp
    obtain ⟨hmem, hreap⟩ := List.mem_filter.mp hrow
    exact ⟨row, Store.getById_of_mem hs hmem, hentry, of_decide_eq_true hreap⟩
  · rintro ⟨row, hrow, hentry, hreap⟩
    refine List.mem_flatMap.mpr ⟨row, ?_, List.mem_map.mpr ⟨p.2, hentry, ?_⟩⟩
    · exact List.mem_filter.mpr ⟨List.mem_of_find?_eq_some hrow, decide_eq_true hreap⟩
    · rw [Store.getById_id hrow]

theorem listed_of_eq {ttl : Int} {began : Nat} {s t : Store} {p : String × String}
    (h : Listed ttl began s p) (heq : t.getById p.1 = s.getById p.1) : Listed ttl began t p := by
  obtain ⟨row, hrow, hentry, hreap⟩ := h
  exact ⟨row, heq.trans hrow, hentry, hreap⟩

/-- A write that spares the row keeps it listed. -/
theorem listed_write {ttl : Int} {began now : Nat} {s t : Store} {w : Write} {p : String × String}
    (h : Listed ttl began s p) (hw : w.apply s now = .ok t)
    (hspares : p.1 = w.target → ∀ row, s.getById p.1 = some row → SparesRow ttl began now row w) :
    Listed ttl began t p := by
  by_cases hid : p.1 = w.target
  · obtain ⟨row, hrow, hentry, hreap⟩ := h
    have hspared := hspares hid row hrow
    rw [hid] at hrow
    refine ⟨w.change now row, ?_, ?_, (reapable_change_iff hrow hreap hw).mpr hspared⟩
    · rw [Write.apply_ok hw, hid, Store.getById_update_self s w.target (Write.change_id now w), hrow]
      rfl
    · rw [entries_change hrow hreap.1 hw]
      exact hentry
  · apply listed_of_eq h
    rw [Write.apply_ok hw]
    exact Store.getById_update_ne s (Write.change_id now w) hid

/-- The INSERT takes an id that no row has. -/
theorem listed_createQueued {ttl : Int} {began : Nat} {s t : Store} {job : Job}
    {p : String × String} (h : Listed ttl began s p) (hc : s.createQueued job = .ok t) :
    Listed ttl began t p := by
  obtain ⟨row, hrow, -, -⟩ := id h
  apply listed_of_eq h
  unfold Store.createQueued at hc
  split at hc
  · cases hc
    unfold Store.getById at hrow ⊢
    rw [List.find?_append, hrow]
    rfl
  · cases hc

theorem inv_next {ttl : Int} {s s' : State} {l : Label} (hs : Inv ttl s) (hok : Spares ttl s l)
    (h : next ttl s l = some s') : Inv ttl s' := by
  obtain ⟨hkeyed, hpending⟩ := hs
  cases l with
  | begins now =>
    simp only [next] at h
    split at h <;> cases h
    exact ⟨hkeyed, nofun⟩
  | scan =>
    simp only [next] at h
    split at h <;> cases h
    refine ⟨hkeyed, fun began pending hpc p hp => ?_⟩
    cases hpc
    exact (listed_iff hkeyed).mp hp
  | delete outcome =>
    simp only [next] at h
    split at h <;> cases h
    rename_i began id entry rest hpc
    refine ⟨hkeyed, fun began' pending' hpc' p hp => ?_⟩
    cases hpc'
    exact hpending began _ hpc p (List.mem_cons_of_mem _ hp)
  | ends =>
    simp only [next] at h
    split at h <;> cases h
    exact ⟨hkeyed, nofun⟩
  | request jobId index =>
    cases h
    exact ⟨hkeyed, hpending⟩
  | lookUp i =>
    simp only [next] at h
    split at h <;> cases h
    exact ⟨hkeyed, hpending⟩
  | getObject i fails =>
    simp only [next] at h
    split at h <;> cases h
    exact ⟨hkeyed, hpending⟩
  | setFetched i now =>
    simp only [next] at h
    split at h <;> cases h
    rename_i jobId data hget
    have hid := Write.change_id now (.setFetched jobId)
    refine ⟨Store.keyed_update hkeyed jobId hid, fun began pending hpc p hp => ?_⟩
    apply listed_of_eq (hpending began pending hpc p hp)
    exact Store.getById_update_ne s.store hid (hok jobId data began pending hget hpc p hp)
  | create id modelName inputJson mode webhookUrl webhookHeaders now =>
    simp only [next] at h
    split at h <;> cases h
    · rename_i store hc
      refine ⟨Store.keyed_createQueued hkeyed hc, fun began pending hpc p hp => ?_⟩
      exact listed_createQueued (hpending began pending hpc p hp) hc
    · exact ⟨hkeyed, hpending⟩
  | upload a data =>
    cases h
    exact ⟨hkeyed, hpending⟩
  | write w now =>
    simp only [next] at h
    split at h <;> cases h
    · rename_i store hw
      refine ⟨Write.keyed_apply hkeyed hw, fun began pending hpc p hp => ?_⟩
      exact listed_write (hpending began pending hpc p hp) hw (hok began pending hpc p hp)
    · exact ⟨hkeyed, hpending⟩

theorem deletesOrphans_of_inv {ttl : Int} {s : State} {l : Label} (hs : Inv ttl s) :
    DeletesOrphans ttl s l := by
  cases l with
  | delete outcome =>
    intro began id entry pending hpc _
    exact hs.pending began _ hpc (id, entry) List.mem_cons_self
  | _ => trivial

/-- A pass deletes nothing but orphans, when no row of it is fetched or touched
while it has still to delete an object of the row. -/
theorem only_orphans_are_deleted {ttl : Int} {store : Store} {objects : Objects}
    {labels : List Label} (hstore : store.Keyed)
    (hspares : AllSteps (next ttl) (Spares ttl) (start store objects) labels) :
    AllSteps (next ttl) (DeletesOrphans ttl) (start store objects) labels :=
  hspares.of_invariant (fun _ _ _ hs hok h => inv_next hs hok h)
    (fun _ _ hs _ => deletesOrphans_of_inv hs) (inv_start ttl objects hstore)

/-! ## A fetch in the middle of a pass -/

def completedRow (id : String) (updatedAt : Nat) : Job :=
  { Job.fresh id "m" (.malformed "") .async none none 0 with
    status := .completed, outputKeys := some ["b/" ++ id], updatedAt := updatedAt }

/-- The row "a" is old, the row "c" is young. -/
def twoResults : Store := [completedRow "a" 5, completedRow "c" 150]

def twoObjects : Objects :=
  putObject (putObject (fun _ => none) ("b", "a") [1]) ("b", "c") [2]

theorem twoResults_keyed : twoResults.Keyed := by
  simp [Store.Keyed, twoResults, completedRow, Job.fresh]

/-- A flag of the young row is written in the middle of the pass. -/
theorem the_young_row_may_change :
    AllSteps (next 100) (DeletesOrphans 100) (start twoResults twoObjects)
      [.begins 200, .scan, .write (.markHandover "c") 201, .delete .deleted, .ends] := by
  apply only_orphans_are_deleted twoResults_keyed
  refine ⟨trivial, fun s hs => ?_⟩
  cases hs
  refine ⟨trivial, fun s hs => ?_⟩
  cases hs
  refine ⟨?_, fun s hs => ⟨trivial, fun s' _ => ⟨trivial, fun _ _ => trivial⟩⟩⟩
  intro began pending hpc p hp hid
  cases hpc
  rw [List.mem_singleton.mp hp] at hid
  exact absurd hid (by decide)

/-- The gateway has read the object, and its `set_fetched` is committed. -/
def fetchedInBetween : List Label :=
  [.begins 200, .scan, .request "a" 0, .lookUp 0, .getObject 0 false, .setFetched 0 201]

theorem a_fetched_result_is_deleted :
    ∃ s s', exec (next 100) (start twoResults twoObjects) fetchedInBetween = some s ∧
      (s.store.getById "a").map (·.fetchedAt) = some (some 201) ∧
      next 100 s (.delete .deleted) = some s' ∧
      s.objects ("b", "a") = some [1] ∧ s'.objects ("b", "a") = none ∧
      ¬ DeletesOrphans 100 s (.delete .deleted) := by
  have hrun : exec (next 100) (start twoResults twoObjects) fetchedInBetween =
      some ⟨[{ completedRow "a" 5 with fetchedAt := some 201 }, completedRow "c" 150], twoObjects,
        .deleting 200 [("a", "b/a")], 0, [.answered (some [1])]⟩ := by rfl
  refine ⟨_, _, hrun, rfl, rfl, rfl, rfl, fun h => ?_⟩
  obtain ⟨row, hrow, -, -, hfetched, -⟩ := h 200 "a" "b/a" [] rfl rfl
  cases hrow
  cases hfetched

end image_gen.reaper

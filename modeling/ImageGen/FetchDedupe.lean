-- Many POSTs of `/v1/loras/fetch` at once, next to the fetcher's tasks and the
-- boot recovery. A POST looks for an active row, inserts one, or looks again
-- when the insert is refused.
import ImageGen.CivitaiFetch
import ImageGen.Runs
import Mathlib.Data.List.Chain

namespace image_gen.fetch_dedupe

open image_gen.coroutine image_gen.runs image_gen.fetch_table
open image_gen.fetch_table (Table)

/-! ## The handler -/

/-- A body that has passed, and what `parse_civitai_url` makes of its URL. -/
structure Parsed where
  url : String
  modelId : Option Int
  versionId : Int

inductive Response
  /-- A 202 with the id of a row. -/
  | accepted (requestId : String) (deduped : Bool)
  | error (statusCode : Nat) (code message : String)

inductive Exc
  /-- `aiosqlite.IntegrityError`. -/
  | integrity
  | other (message : String)

inductive Op
  | findActiveByVersion (version : Int)
  | createPending (url : String) (modelId : Option Int) (version : Int)
  /-- `fetcher.enqueue`. -/
  | enqueue (requestId : String)

@[reducible] def Op.Ans : Op → Type
  | .findActiveByVersion _ => Option LoraFetch
  | .createPending _ _ _ => LoraFetch
  | .enqueue _ => Unit

abbrev Prog (α : Type) := Co Exc Op Op.Ans α

def ask (op : Op) : Prog op.Ans := Co.call op

/-- The second lookup, after a sibling has won the race. -/
def fallback (p : Parsed) : Prog Response := do
  match ← ask (.findActiveByVersion p.versionId) with
  | none => return .error 503 "internal" "fetch could not be scheduled; retry"
  | some existing => return .accepted existing.id true

def enqueuing (requestId : String) : Prog Response := do
  ask (.enqueue requestId)
  return .accepted requestId false

def creating (p : Parsed) : Prog Response := do
  let created ← tryCatch (Except.ok <$> ask (.createPending p.url p.modelId p.versionId)) fun
    | .integrity => pure (.error ())
    | e => throw e
  match created with
  | .ok row => enqueuing row.id
  | .error () => fallback p

/-- `post_fetch`, from the parsed URL on. -/
def postFetch (p : Parsed) : Prog Response := do
  match ← ask (.findActiveByVersion p.versionId) with
  | some existing => return .accepted existing.id true
  | none => creating p

/-! ## The service -/

structure Handler where
  parsed : Parsed
  rest : Prog Response
  /-- The length of the history when the request came. -/
  since : Nat

inductive Recovery
  | before
  /-- `set_failed` for these rows is to come. -/
  | failing (ids : List String)
  | over

structure State where
  table : Table
  /-- The table at every moment so far. -/
  history : List Table
  handlers : List Handler
  tasks : List (civitai_fetch.Prog Unit)
  recovery : Recovery
  /-- Each inserted row, with the handler that inserted it. -/
  created : List (String × Nat)
  /-- Each row handed to the fetcher, with the handler that did. -/
  enqueued : List (String × Nat)

/-- What one operation of a fetcher's task meets. -/
structure FetchInput where
  now : Nat
  /-- It raises this, as a cancelled task does, with its effect or without. -/
  fault : Option (civitai_fetch.Exc × Bool)
  /-- The progress that a download writes. -/
  written : Nat
  /-- The network and the file system. -/
  answer : (op : civitai_fetch.Op) → Except civitai_fetch.Exc op.Ans

inductive Label
  | post (p : Parsed)
  /-- The operation of handler `i`. An insert gets the id. `fault` is an
  exception that is no `IntegrityError`. -/
  | handle (i : Nat) (now : Nat) (id : String) (fault : Option String)
  | fetch (j : Nat) (inp : FetchInput)
  /-- A fault of the database stops the pass. -/
  | recover (now : Nat) (fault : Bool)

def tableWrite (r : Except TableError Table) (t : Table) :
    Except civitai_fetch.Exc Unit × Table :=
  match r with
  | .ok t' => (.ok (), t')
  | .error e => (.error (.table e), t)

/-- An operation of the fetcher on the table. -/
def execFetch (inp : FetchInput) : (op : civitai_fetch.Op) → Table →
    Except civitai_fetch.Exc op.Ans × Table
  | .getById id, t => (.ok (t.getById id), t)
  | .setStatus id target, t => tableWrite (t.setStatus id target inp.now) t
  | .setFailed id code message handover, t =>
    tableWrite (t.setFailed id code message handover inp.now) t
  | .setTotalBytes id total, t => (.ok (), t.setTotalBytes id total inp.now)
  | .setDestName id name, t => (.ok (), t.setDestName id name inp.now)
  | .streamDownload id url tmp size, t =>
    (inp.answer (.streamDownload id url tmp size), t.setProgress id inp.written inp.now)
  | op, t => (inp.answer op, t)

/-- An operation of handler `i`. -/
def execHandler (cfg : civitai_fetch.Config) (i now : Nat) (id : String) (fault : Option String) :
    (op : Op) → State → Except Exc op.Ans × State
  | .enqueue requestId, s => (.ok (), { s with
      tasks := s.tasks ++ [civitai_fetch.runFetch cfg requestId]
      enqueued := s.enqueued ++ [(requestId, i)] })
  | .findActiveByVersion version, s =>
    match fault with
    | some message => (.error (.other message), s)
    | none => (.ok (s.table.findActiveByVersion version), s)
  | .createPending url modelId version, s =>
    match fault with
    | some message => (.error (.other message), s)
    | none =>
      match s.table.createPending id url modelId version now with
      | .error _ => (.error .integrity, s)
      | .ok (row, table) =>
        (.ok row, { s with table := table, created := s.created ++ [(row.id, i)] })

/-- `recover_fetches`, one operation at a time. -/
def recoveryStep (now : Nat) (fault : Bool) (s : State) : Option State :=
  match s.recovery, fault with
  | .over, _ => none
  | _, true => some { s with recovery := .over }
  | .before, false => some { s with recovery := .failing (s.table.scanNonTerminal.map (·.id)) }
  | .failing [], false => some { s with recovery := .over }
  | .failing (id :: ids), false =>
    match s.table.setFailed id "service_restarted" "fetcher interrupted by service restart" true
        now with
    | .ok table => some { s with table := table, recovery := .failing ids }
    -- `set_failed` raises and the pass stops
    | .error _ => some { s with recovery := .over }

def act (cfg : civitai_fetch.Config) (s : State) : Label → Option State
  | .post p => some { s with handlers := s.handlers ++ [⟨p, postFetch p, s.history.length⟩] }
  | .handle i now id fault =>
    match s.handlers[i]? with
    | some ⟨p, .await op k, since⟩ =>
      let (answer, s') := execHandler cfg i now id fault op s
      some { s' with handlers := s'.handlers.set i ⟨p, k answer, since⟩ }
    | _ => none
  | .fetch j inp =>
    match s.tasks[j]? with
    | some (.await op k) =>
      let (answer, table) := execFetch inp op s.table
      match inp.fault with
      | some (e, true) =>
        some { s with table := table, tasks := s.tasks.set j (k (.error e)) }
      | some (e, false) => some { s with tasks := s.tasks.set j (k (.error e)) }
      | none => some { s with table := table, tasks := s.tasks.set j (k answer) }
    | _ => none
  | .recover now fault => recoveryStep now fault s

/-- The table goes into the history after each step. -/
def recorded (s : State) : State := { s with history := s.history ++ [s.table] }

def next (cfg : civitai_fetch.Config) (s : State) (l : Label) : Option State :=
  (act cfg s l).map recorded

/-- The service at boot, with the rows that the last run left. -/
def boot (t : Table) : State := ⟨t, [t], [], [], .before, [], []⟩

/-! ## The table -/

theorem ids_update {t : Table} {id : String} {f : LoraFetch → LoraFetch}
    (hf : ∀ r, (f r).id = r.id) : (t.update id f).map (·.id) = t.map (·.id) := by
  unfold Table.update
  rw [List.map_map]
  refine List.map_congr_left fun r _ => ?_
  simp only [Function.comp_apply]
  split
  · exact hf r
  · rfl

theorem ids_transition {t t' : Table} {id : String} {target : FetchStatus}
    {f : LoraFetch → LoraFetch} (hf : ∀ r, (f r).id = r.id)
    (h : t.transition id target f = .ok t') : t'.map (·.id) = t.map (·.id) := by
  unfold Table.transition at h
  split at h
  · cases h
  · split at h
    · cases h
      exact ids_update hf
    · cases h

/-- The rows take allowed steps, and none comes or goes. -/
structure Rewritten (t t' : Table) : Prop where
  indexed : t'.Indexed
  evolves : Evolves t t'
  ids : t'.map (·.id) = t.map (·.id)

theorem rewritten_refl {t : Table} (h : t.Indexed) : Rewritten t t := ⟨h, evolves_refl t, rfl⟩

theorem rewritten_transition {t t' : Table} (h : t.Indexed) {id : String} {target : FetchStatus}
    {f : LoraFetch → LoraFetch} (hid : ∀ r, (f r).id = r.id)
    (hversion : ∀ r, (f r).civitaiVersionId = r.civitaiVersionId)
    (hstatus : ∀ r, (f r).status = target) (hstep : t.transition id target f = .ok t') :
    Rewritten t t' := by
  obtain ⟨hindexed, hevolves⟩ := transition_spec h hid hversion hstatus hstep
  exact ⟨hindexed, hevolves, ids_transition hid hstep⟩

theorem rewritten_setFailed {t t' : Table} (h : t.Indexed) {id code message : String}
    {handover : Bool} {now : Nat} (hstep : t.setFailed id code message handover now = .ok t') :
    Rewritten t t' := by
  refine rewritten_transition h ?_ ?_ ?_ hstep <;> exact fun _ => rfl

/-- A write of a column that is no status. -/
theorem rewritten_update {t : Table} (h : t.Indexed) {id : String} {f : LoraFetch → LoraFetch}
    (hf : ∀ r, Keeps r (f r)) : Rewritten t (t.update id f) := by
  obtain ⟨hindexed, hevolves⟩ := update_spec h fun r _ _ => hf r
  exact ⟨hindexed, hevolves, ids_update fun r => (hf r).id⟩

theorem rewritten_tableWrite {t : Table} (h : t.Indexed) {r : Except TableError Table}
    (hr : ∀ t', r = .ok t' → Rewritten t t') : Rewritten t (tableWrite r t).2 := by
  cases r with
  | ok t' => exact hr t' rfl
  | error e => exact rewritten_refl h

theorem execFetch_table (inp : FetchInput) (op : civitai_fetch.Op) {t : Table}
    (h : t.Indexed) : Rewritten t (execFetch inp op t).2 := by
  cases op with
  | setStatus id target =>
    apply rewritten_tableWrite h
    intro t' ht'
    refine rewritten_transition h ?_ ?_ ?_ ht' <;> exact fun _ => rfl
  | setFailed id code message handover =>
    apply rewritten_tableWrite h
    exact fun t' ht' => rewritten_setFailed h ht'
  | setTotalBytes id total => exact rewritten_update h fun r => ⟨rfl, rfl, Or.inl rfl⟩
  | setDestName id name => exact rewritten_update h fun r => ⟨rfl, rfl, Or.inl rfl⟩
  | streamDownload id url tmp size => exact rewritten_update h fun r => ⟨rfl, rfl, Or.inl rfl⟩
  | _ => exact rewritten_refl h

/-! ## The handlers -/

/-- An active row of the version was in the table at some moment since `since`. -/
def Seen (history : List Table) (p : Parsed) (since : Nat) (id : String) : Prop :=
  ∃ t ∈ history.drop since, ∃ r ∈ t,
    r.id = id ∧ r.civitaiVersionId = p.versionId ∧ r.Active

theorem Seen.mono {history history' : List Table} {p : Parsed} {since : Nat} {id : String}
    (h : Seen history p since id) (hgrow : history <+: history') : Seen history' p since id := by
  obtain ⟨t, ht, hrow⟩ := h
  obtain ⟨later, rfl⟩ := hgrow
  refine ⟨t, ?_, hrow⟩
  rw [List.drop_append]
  exact List.mem_append_left _ ht

/-- What handler `i` has inserted and handed over so far, where its program
stands. -/
inductive Stands (s : State) (i : Nat) (p : Parsed) (since : Nat) : Prog Response → Prop
  | looking (h : ∀ id, (id, i) ∉ s.created) : Stands s i p since (postFetch p)
  | creating (h : ∀ id, (id, i) ∉ s.created) : Stands s i p since (creating p)
  | losing (h : ∀ id, (id, i) ∉ s.created) : Stands s i p since (fallback p)
  | enqueuing (id : String) (h : ∀ id', (id', i) ∈ s.created ↔ id' = id)
      (hnew : (id, i) ∉ s.enqueued) (hseen : Seen s.history p since id) :
      Stands s i p since (enqueuing id)
  | accepted (id : String) (deduped : Bool)
      (h : ∀ id', (id', i) ∈ s.created → (id', i) ∈ s.enqueued)
      (hseen : Seen s.history p since id) :
      Stands s i p since (.ret (.accepted id deduped))
  | refused (statusCode : Nat) (code message : String) (h : ∀ id, (id, i) ∉ s.created) :
      Stands s i p since (.ret (.error statusCode code message))
  | raised (e : Exc) (h : ∀ id, (id, i) ∉ s.created) : Stands s i p since (.raise e)

/-- What the others do leaves a handler where it stands. -/
theorem Stands.mono {s s' : State} {i : Nat} {p : Parsed} {since : Nat} {rest : Prog Response}
    (h : Stands s i p since rest) (hcreated : ∀ id, (id, i) ∈ s'.created ↔ (id, i) ∈ s.created)
    (henqueued : ∀ id, (id, i) ∈ s'.enqueued ↔ (id, i) ∈ s.enqueued)
    (hgrow : s.history <+: s'.history) : Stands s' i p since rest := by
  cases h with
  | looking h => exact .looking fun id hid => h id ((hcreated id).mp hid)
  | creating h => exact .creating fun id hid => h id ((hcreated id).mp hid)
  | losing h => exact .losing fun id hid => h id ((hcreated id).mp hid)
  | enqueuing id h hnew hseen =>
    refine .enqueuing id (fun id' => (hcreated id').trans (h id')) ?_ (hseen.mono hgrow)
    exact fun hid => hnew ((henqueued id).mp hid)
  | accepted id deduped h hseen =>
    refine .accepted id deduped (fun id' hid => ?_) (hseen.mono hgrow)
    exact (henqueued id').mpr (h id' ((hcreated id').mp hid))
  | refused statusCode code message h =>
    exact .refused statusCode code message fun id hid => h id ((hcreated id).mp hid)
  | raised e h => exact .raised e fun id hid => h id ((hcreated id).mp hid)

/-! ## The invariant -/

/-- What holds of the service at every moment. -/
structure Sound (t₀ : Table) (s : State) : Prop where
  indexed : ∀ t ∈ s.history, t.Indexed
  evolves : s.history.IsChain Evolves
  last : s.history.getLast? = some s.table
  stands : ∀ i p rest since, s.handlers[i]? = some ⟨p, rest, since⟩ → Stands s i p since rest
  begun : ∀ c ∈ s.handlers, c.since ≤ s.history.length
  /-- Inserts are by the handlers that came. -/
  known : ∀ id i, (id, i) ∈ s.created → i < s.handlers.length
  rows : s.table.map (·.id) = t₀.map (·.id) ++ s.created.map (·.1)
  handed : s.enqueued ⊆ s.created
  once : s.enqueued.Nodup

theorem Sound.current {t₀ : Table} {s : State} (h : Sound t₀ s) : s.table.Indexed :=
  h.indexed s.table (List.mem_of_getLast? h.last)

theorem sound_boot {t₀ : Table} (h : t₀.Indexed) : Sound t₀ (boot t₀) where
  indexed t ht := by
    rw [List.mem_singleton.mp ht]
    exact h
  evolves := List.IsChain.singleton _
  last := rfl
  stands i p rest since hi := by cases hi
  begun c hc := by cases hc
  known id i hid := by cases hid
  rows := (List.append_nil _).symm
  handed := List.nil_subset _
  once := List.nodup_nil

theorem chain_recorded {s s' : State} (h : s.history.IsChain Evolves)
    (hlast : s.history.getLast? = some s.table) (hstep : Evolves s.table s'.table) :
    (s.history ++ [s'.table]).IsChain Evolves := by
  refine List.IsChain.append h (List.IsChain.singleton _) ?_
  intro t ht t' ht'
  rw [hlast, Option.mem_some_iff] at ht
  rw [List.head?_cons, Option.mem_some_iff] at ht'
  rw [← ht, ← ht']
  exact hstep

/-- A step of a task or of the recovery: the rows change, and nothing else that
the invariant is about. -/
theorem sound_rewritten {t₀ : Table} {s s' : State} (h : Sound t₀ s)
    (htable : Rewritten s.table s'.table) (hhistory : s'.history = s.history)
    (hhandlers : s'.handlers = s.handlers) (hcreated : s'.created = s.created)
    (henqueued : s'.enqueued = s.enqueued) : Sound t₀ (recorded s') where
  indexed t ht := by
    change t ∈ s'.history ++ [s'.table] at ht
    rw [hhistory] at ht
    rcases List.mem_append.mp ht with ht | ht
    · exact h.indexed t ht
    · rw [List.mem_singleton.mp ht]
      exact htable.indexed
  evolves := by
    change (s'.history ++ [s'.table]).IsChain Evolves
    rw [hhistory]
    exact chain_recorded h.evolves h.last htable.evolves
  last := by simp [recorded]
  stands i p rest since hi := by
    change s'.handlers[i]? = _ at hi
    rw [hhandlers] at hi
    refine (h.stands i p rest since hi).mono ?_ ?_ ?_
    · simp [recorded, hcreated]
    · simp [recorded, henqueued]
    · simp [recorded, hhistory]
  begun c hc := by
    change c ∈ s'.handlers at hc
    rw [hhandlers] at hc
    simpa [recorded, hhistory] using Nat.le_succ_of_le (h.begun c hc)
  known id i hid := by
    change (id, i) ∈ s'.created at hid
    rw [hcreated] at hid
    change i < s'.handlers.length
    rw [hhandlers]
    exact h.known id i hid
  rows := by
    change s'.table.map (·.id) = t₀.map (·.id) ++ s'.created.map (·.1)
    rw [hcreated, htable.ids, h.rows]
  handed := by
    change s'.enqueued ⊆ s'.created
    rw [hcreated, henqueued]
    exact h.handed
  once := by
    change s'.enqueued.Nodup
    rw [henqueued]
    exact h.once

/-- A step of handler `i`, which inserts `new` and hands `added` over. -/
theorem sound_handled {t₀ : Table} {s s' : State} (h : Sound t₀ s) {i : Nat} {c : Handler}
    {rest : Prog Response} (hi : s.handlers[i]? = some c) (new added : List String)
    (hindexed : s'.table.Indexed) (hevolves : Evolves s.table s'.table)
    (hids : s'.table.map (·.id) = s.table.map (·.id) ++ new) (hhistory : s'.history = s.history)
    (hhandlers : s'.handlers = s.handlers.set i ⟨c.parsed, rest, c.since⟩)
    (hcreated : s'.created = s.created ++ new.map (·, i))
    (henqueued : s'.enqueued = s.enqueued ++ added.map (·, i))
    (hhanded : ∀ id ∈ added, (id, i) ∈ s'.created) (honce : s'.enqueued.Nodup)
    (hstands : Stands (recorded s') i c.parsed c.since rest) : Sound t₀ (recorded s') where
  indexed t ht := by
    change t ∈ s'.history ++ [s'.table] at ht
    rw [hhistory] at ht
    rcases List.mem_append.mp ht with ht | ht
    · exact h.indexed t ht
    · rw [List.mem_singleton.mp ht]
      exact hindexed
  evolves := by
    change (s'.history ++ [s'.table]).IsChain Evolves
    rw [hhistory]
    exact chain_recorded h.evolves h.last hevolves
  last := by simp [recorded]
  stands j p rest' since hj := by
    change s'.handlers[j]? = _ at hj
    rw [hhandlers] at hj
    by_cases hij : i = j
    · subst hij
      rw [List.getElem?_set_self (List.getElem?_eq_some_iff.mp hi).1, Option.some.injEq] at hj
      cases hj
      exact hstands
    · rw [List.getElem?_set_ne hij] at hj
      refine (h.stands j p rest' since hj).mono ?_ ?_ ?_
      · intro id
        change (id, j) ∈ s'.created ↔ _
        simp [hcreated, hij]
      · intro id
        change (id, j) ∈ s'.enqueued ↔ _
        simp [henqueued, hij]
      · simp [recorded, hhistory]
  begun c' hc' := by
    change c' ∈ s'.handlers at hc'
    rw [hhandlers] at hc'
    have hle : c'.since ≤ s.history.length := by
      rcases List.mem_or_eq_of_mem_set hc' with hc' | rfl
      · exact h.begun c' hc'
      · exact h.begun c (List.mem_of_getElem? hi)
    simpa [recorded, hhistory] using Nat.le_succ_of_le hle
  known id j hid := by
    change (id, j) ∈ s'.created at hid
    change j < s'.handlers.length
    rw [hhandlers, List.length_set]
    rw [hcreated] at hid
    rcases List.mem_append.mp hid with hid | hid
    · exact h.known id j hid
    · obtain ⟨id', -, heq⟩ := List.mem_map.mp hid
      cases heq
      exact (List.getElem?_eq_some_iff.mp hi).1
  rows := by
    change s'.table.map (·.id) = t₀.map (·.id) ++ s'.created.map (·.1)
    rw [hids, hcreated, h.rows]
    simp [Function.comp_def]
  handed := by
    change s'.enqueued ⊆ s'.created
    rintro ⟨id, j⟩ hid
    rw [henqueued] at hid
    rcases List.mem_append.mp hid with hid | hid
    · rw [hcreated]
      exact List.mem_append_left _ (h.handed hid)
    · obtain ⟨id', hid', heq⟩ := List.mem_map.mp hid
      cases heq
      exact hhanded _ hid'
  once := honce

/-- A step of handler `i` that writes nothing. -/
theorem sound_answered {t₀ : Table} {s : State} (h : Sound t₀ s) {i : Nat} {c : Handler}
    {rest : Prog Response} (hi : s.handlers[i]? = some c)
    (hstands : Stands (recorded s) i c.parsed c.since rest) :
    Sound t₀ (recorded { s with handlers := s.handlers.set i ⟨c.parsed, rest, c.since⟩ }) := by
  refine sound_handled h hi [] [] h.current (evolves_refl _)
    (List.append_nil _).symm rfl rfl (List.append_nil _).symm (List.append_nil _).symm nofun
    h.once ?_
  exact hstands.mono (fun _ => Iff.rfl) (fun _ => Iff.rfl) (List.prefix_refl _)

theorem seen_now {s : State} {p : Parsed} {since : Nat} (hsince : since ≤ s.history.length)
    {row : LoraFetch} (hmem : row ∈ s.table) (hversion : row.civitaiVersionId = p.versionId)
    (hactive : row.Active) : Seen (recorded s).history p since row.id := by
  refine ⟨s.table, ?_, row, hmem, rfl, hversion, hactive⟩
  change s.table ∈ (s.history ++ [s.table]).drop since
  rw [List.drop_append_of_le_length hsince]
  simp

/-- What a lookup finds is seen. -/
theorem seen_found {s : State} {p : Parsed} {since : Nat} (hsince : since ≤ s.history.length)
    {row : LoraFetch} (hrow : s.table.findActiveByVersion p.versionId = some row) :
    Seen (recorded s).history p since row.id := by
  obtain ⟨hmem, hversion, hactive⟩ := findActive_spec hrow
  exact seen_now hsince hmem hversion hactive

/-- The state after the operation of handler `i`, with its program moved on. -/
def moved (s : State) (i : Nat) (c : Handler) (rest : Prog Response) : State :=
  { s with handlers := s.handlers.set i ⟨c.parsed, rest, c.since⟩ }

section Handle

variable {cfg : civitai_fetch.Config} {t₀ : Table} {s s' : State} {i now : Nat} {id : String}
  {fault : Option String} {c : Handler}

theorem act_handle {op : Op} {k : Except Exc op.Ans → Prog Response}
    (hi : s.handlers[i]? = some c) (hrest : c.rest = .await op k) :
    act cfg s (.handle i now id fault) =
      some (moved (execHandler cfg i now id fault op s).2 i c
        (k (execHandler cfg i now id fault op s).1)) := by
  obtain ⟨p, rest, since⟩ := c
  subst hrest
  simp only [act, hi]
  rfl

/-- A lookup: the handler goes on with what the table has, or with a fault. -/
theorem sound_found (h : Sound t₀ s) (hi : s.handlers[i]? = some c)
    {k : Except Exc (Option LoraFetch) → Prog Response}
    (hrest : c.rest = .await (.findActiveByVersion c.parsed.versionId) k)
    (hfault : ∀ e, k (.error e) = .raise e)
    (hfound : ∀ row, k (.ok (some row)) = .ret (.accepted row.id true))
    (hidle : ∀ id, (id, i) ∉ s.created)
    (hnone : Stands (recorded s) i c.parsed c.since (k (.ok none)))
    (hact : act cfg s (.handle i now id fault) = some s') : Sound t₀ (recorded s') := by
  rw [act_handle hi hrest] at hact
  cases hact
  have hsince := h.begun c (List.mem_of_getElem? hi)
  cases fault with
  | some message =>
    refine sound_answered h hi ?_
    change Stands (recorded s) i c.parsed c.since (k (.error _))
    rw [hfault]
    exact .raised _ hidle
  | none =>
    refine sound_answered h hi ?_
    change Stands (recorded s) i c.parsed c.since (k (.ok _))
    rcases hrow : s.table.findActiveByVersion c.parsed.versionId with _ | row
    · exact hnone
    · rw [hfound]
      exact .accepted row.id true (fun id' hid => absurd hid (hidle id')) (seen_found hsince hrow)

/-- The insert: the row and its handler, or the second lookup when it is refused. -/
theorem sound_created (h : Sound t₀ s) (hi : s.handlers[i]? = some c)
    {k : Except Exc LoraFetch → Prog Response} {url : String} {modelId : Option Int}
    (hrest : c.rest = .await (.createPending url modelId c.parsed.versionId) k)
    (hok : ∀ row, k (.ok row) = enqueuing row.id)
    (hintegrity : k (.error .integrity) = fallback c.parsed)
    (hother : ∀ message, k (.error (.other message)) = .raise (.other message))
    (hidle : ∀ id, (id, i) ∉ s.created)
    (hact : act cfg s (.handle i now id fault) = some s') : Sound t₀ (recorded s') := by
  rw [act_handle hi hrest] at hact
  cases hact
  have hsince := h.begun c (List.mem_of_getElem? hi)
  cases fault with
  | some message =>
    refine sound_answered h hi ?_
    change Stands (recorded s) i c.parsed c.since (k (.error _))
    rw [hother]
    exact .raised _ hidle
  | none =>
    simp only [execHandler]
    rcases hstep : s.table.createPending id url modelId c.parsed.versionId now with e | ⟨row, table⟩
    · refine sound_answered h hi ?_
      change Stands (recorded s) i c.parsed c.since (k (.error _))
      rw [hintegrity]
      exact .losing hidle
    · obtain ⟨hrow, htable, -, hindexed, hevolves⟩ := createPending_spec h.current hstep
      refine sound_handled h hi [row.id] [] hindexed hevolves ?_ rfl rfl rfl
        (List.append_nil _).symm nofun h.once ?_
      · change table.map (·.id) = _
        simp [htable]
      · change Stands _ i c.parsed c.since (k (.ok row))
        rw [hok]
        refine .enqueuing row.id ?_ ?_ ?_
        · intro id'
          change (id', i) ∈ s.created ++ [(row.id, i)] ↔ _
          simp [hidle]
        · exact fun hid => hidle row.id (h.handed hid)
        · refine seen_now (s := moved { s with table := table } i c (enqueuing row.id)) hsince
            ?_ ?_ ?_
          · change row ∈ table
            simp [htable]
          · rw [hrow]
            rfl
          · rw [hrow]
            exact ⟨nofun, nofun⟩

/-- The row goes to the fetcher, once. -/
theorem sound_enqueued (h : Sound t₀ s) (hi : s.handlers[i]? = some c) {requestId : String}
    (hrest : c.rest = enqueuing requestId)
    (hmine : ∀ id', (id', i) ∈ s.created ↔ id' = requestId) (hnew : (requestId, i) ∉ s.enqueued)
    (hseen : Seen s.history c.parsed c.since requestId)
    (hact : act cfg s (.handle i now id fault) = some s') : Sound t₀ (recorded s') := by
  rw [act_handle hi hrest] at hact
  cases hact
  refine sound_handled h hi [] [requestId] h.current (evolves_refl _)
    (List.append_nil _).symm rfl rfl (List.append_nil _).symm rfl ?_ ?_ ?_
  · intro id' hid
    rw [List.mem_singleton.mp hid]
    exact (hmine requestId).mpr rfl
  · change (s.enqueued ++ [(requestId, i)]).Nodup
    rw [List.nodup_append]
    refine ⟨h.once, List.nodup_singleton _, ?_⟩
    rintro pair hpair pair' hpair' rfl
    rw [List.mem_singleton] at hpair'
    rw [hpair'] at hpair
    exact hnew hpair
  · refine .accepted requestId false ?_ (hseen.mono (List.prefix_append _ _))
    intro id' hid
    rw [(hmine id').mp hid]
    exact List.mem_append_right _ (List.mem_singleton_self _)

end Handle

theorem sound_post {t₀ : Table} {s : State} (h : Sound t₀ s) (p : Parsed) :
    Sound t₀ (recorded
      { s with handlers := s.handlers ++ [⟨p, postFetch p, s.history.length⟩] }) where
  indexed t ht := by
    rcases List.mem_append.mp ht with ht | ht
    · exact h.indexed t ht
    · rw [List.mem_singleton.mp ht]
      exact h.current
  evolves := chain_recorded h.evolves h.last (evolves_refl s.table)
  last := by simp [recorded]
  stands i q rest since hi := by
    change (s.handlers ++ [⟨p, postFetch p, s.history.length⟩])[i]? = _ at hi
    by_cases hlt : i < s.handlers.length
    · rw [List.getElem?_append_left hlt] at hi
      exact (h.stands i q rest since hi).mono (fun _ => Iff.rfl) (fun _ => Iff.rfl)
        (List.prefix_append _ _)
    · rw [List.getElem?_append_right (by omega)] at hi
      cases List.mem_singleton.mp (List.mem_of_getElem? hi)
      exact .looking fun id hid => hlt (h.known id i hid)
  begun c hc := by
    change c.since ≤ (s.history ++ [s.table]).length
    rw [List.length_append]
    rcases List.mem_append.mp hc with hc | hc
    · have := h.begun c hc
      omega
    · rw [List.mem_singleton.mp hc]
      exact Nat.le_add_right _ _
  known id i hid := by
    change i < (s.handlers ++ [_]).length
    rw [List.length_append]
    exact Nat.lt_add_right _ (h.known id i hid)
  rows := h.rows
  handed := h.handed
  once := h.once

theorem sound_recover {t₀ : Table} {s s' : State} (h : Sound t₀ s) {now : Nat} {fault : Bool}
    (hstep : recoveryStep now fault s = some s') : Sound t₀ (recorded s') := by
  have hsame := rewritten_refl h.current
  unfold recoveryStep at hstep
  split at hstep
  · cases hstep
  · cases hstep
    exact sound_rewritten h hsame rfl rfl rfl rfl
  · cases hstep
    exact sound_rewritten h hsame rfl rfl rfl rfl
  · cases hstep
    exact sound_rewritten h hsame rfl rfl rfl rfl
  · split at hstep
    · rename_i table htable
      cases hstep
      exact sound_rewritten h (rewritten_setFailed h.current htable) rfl rfl rfl rfl
    · cases hstep
      exact sound_rewritten h hsame rfl rfl rfl rfl

/-- One operation of a handler, by where the handler stands. -/
theorem sound_handle {cfg : civitai_fetch.Config} {t₀ : Table} {s s' : State} {i now : Nat}
    {id : String} {fault : Option String} (h : Sound t₀ s)
    (hact : act cfg s (.handle i now id fault) = some s') : Sound t₀ (recorded s') := by
  rcases hi : s.handlers[i]? with _ | ⟨p, rest, since⟩
  · simp [act, hi] at hact
  cases h.stands i p rest since hi with
  | looking hidle =>
    exact sound_found h hi rfl (fun e => rfl) (fun row => rfl) hidle (.creating hidle) hact
  | creating hidle =>
    exact sound_created h hi rfl (fun row => rfl) rfl (fun message => rfl) hidle hact
  | losing hidle =>
    refine sound_found h hi rfl (fun e => rfl) (fun row => rfl) hidle ?_ hact
    exact .refused 503 _ _ hidle
  | enqueuing requestId hmine hnew hseen =>
    exact sound_enqueued h hi rfl hmine hnew hseen hact
  | accepted requestId deduped hdone hseen => simp [act, hi] at hact
  | refused statusCode code message hidle => simp [act, hi] at hact
  | raised e hidle => simp [act, hi] at hact

theorem sound_next {cfg : civitai_fetch.Config} {t₀ : Table} {s s' : State} {l : Label}
    (h : Sound t₀ s) (hnext : next cfg s l = some s') : Sound t₀ s' := by
  obtain ⟨s', hact, rfl⟩ := Option.map_eq_some_iff.mp hnext
  cases l with
  | post p =>
    cases hact
    exact sound_post h p
  | handle i now id fault => exact sound_handle h hact
  | fetch j inp =>
    simp only [act] at hact
    split at hact
    · rename_i op k hj
      have htable := execFetch_table inp op h.current
      split at hact <;> cases hact
      · exact sound_rewritten h htable rfl rfl rfl rfl
      · exact sound_rewritten h (rewritten_refl h.current) rfl rfl rfl rfl
      · exact sound_rewritten h htable rfl rfl rfl rfl
    · cases hact
  | recover now fault => exact sound_recover h hact

/-! ## The tasks of the fetcher -/

/-- There is one task for each row that was handed over, in the order of the
hand-overs, and it is somewhere in `run_fetch` for that row. -/
def Started (cfg : civitai_fetch.Config) (s : State) : Prop :=
  List.Forall₂ (fun handed task => Co.LeftOf (civitai_fetch.runFetch cfg handed.1) task)
    s.enqueued s.tasks

theorem started_boot (cfg : civitai_fetch.Config) (t : Table) : Started cfg (boot t) := .nil

/-- A handler's operation starts one task with each hand-over, and none without. -/
theorem started_execHandler {cfg : civitai_fetch.Config} {s : State} (h : Started cfg s)
    (i now : Nat) (id : String) (fault : Option String) (op : Op) :
    Started cfg (execHandler cfg i now id fault op s).2 := by
  cases op with
  | enqueue requestId =>
    apply List.rel_append h
    exact .cons .whole .nil
  | findActiveByVersion version => cases fault <;> exact h
  | createPending url modelId version =>
    cases fault with
    | some message => exact h
    | none =>
      simp only [execHandler]
      rcases s.table.createPending id url modelId version now with e | ⟨row, table⟩ <;> exact h

/-- A task's operation takes that task on. -/
theorem started_answered {cfg : civitai_fetch.Config} {s s' : State} (h : Started cfg s) {j : Nat}
    {op : civitai_fetch.Op} {k : Except civitai_fetch.Exc op.Ans → civitai_fetch.Prog Unit}
    (hj : s.tasks[j]? = some (.await op k)) (r : Except civitai_fetch.Exc op.Ans)
    (henqueued : s'.enqueued = s.enqueued) (htasks : s'.tasks = s.tasks.set j (k r)) :
    Started cfg s' := by
  unfold Started
  rw [henqueued, htasks, List.forall₂_iff_get]
  obtain ⟨hlen, hrel⟩ := List.forall₂_iff_get.mp h
  refine ⟨by simp [hlen], fun i hi hi' => ?_⟩
  have hlt : i < s.tasks.length := by simpa using hi'
  have hmine := hrel i hi hlt
  simp only [List.get_eq_getElem, List.getElem_set] at hmine ⊢
  split
  · rename_i hij
    subst hij
    rw [(List.getElem?_eq_some_iff.mp hj).2] at hmine
    exact hmine.answered r
  · exact hmine

theorem started_next {cfg : civitai_fetch.Config} {s s' : State} {l : Label} (h : Started cfg s)
    (hnext : next cfg s l = some s') : Started cfg s' := by
  obtain ⟨s', hact, rfl⟩ := Option.map_eq_some_iff.mp hnext
  cases l with
  | post p =>
    cases hact
    exact h
  | handle i now id fault =>
    simp only [act] at hact
    split at hact <;> cases hact
    exact started_execHandler h i now id fault _
  | fetch j inp =>
    simp only [act] at hact
    split at hact
    · rename_i op k hj
      split at hact <;> cases hact <;> exact started_answered h hj _ rfl rfl
    · cases hact
  | recover now fault =>
    simp only [act] at hact
    unfold recoveryStep at hact
    split at hact
    on_goal 5 => split at hact
    all_goals cases hact
    all_goals exact h

/-! ## Runs -/

/-- The status of a row at every moment that it was there. -/
def statuses (history : List Table) (id : String) : List FetchStatus :=
  history.filterMap fun t => (t.getById id).map (·.status)

theorem getById_of_mem {t : Table} (h : t.Indexed) {r : LoraFetch} (hr : r ∈ t) :
    t.getById r.id = some r := by
  have hsome : (t.getById r.id).isSome := by
    unfold Table.getById
    rw [List.find?_isSome]
    exact ⟨r, hr, by simp⟩
  obtain ⟨r', hr'⟩ := Option.isSome_iff_exists.mp hsome
  obtain ⟨hmem, hid⟩ := mem_of_find hr'
  rw [hr', eq_of_id h hmem hr hid]

/-- Tables that evolve make each row's statuses a path of the transition table. -/
theorem path_of_evolves {history : List Table} (h : ∀ t ∈ history, t.Indexed)
    (hevolves : history.IsChain Evolves) (id : String) :
    (statuses history id).IsChain fun a b => b = a ∨ b ∈ allowedTransitions a := by
  induction history with
  | nil => exact List.IsChain.nil
  | cons t later ih =>
    obtain ⟨hfirst, hlater⟩ := List.isChain_cons.mp hevolves
    have hpath := ih (fun t' ht' => h t' (List.mem_cons_of_mem _ ht')) hlater
    unfold statuses at hpath ⊢
    rcases hrow : t.getById id with _ | r
    · rw [List.filterMap_cons_none (by rw [hrow]; rfl)]
      exact hpath
    rw [List.filterMap_cons_some (b := r.status) (by rw [hrow]; rfl)]
    refine List.isChain_cons.mpr ⟨?_, hpath⟩
    cases later with
    | nil => exact nofun
    | cons t' later =>
      -- the row is in the next table too, so its next status is the one there
      obtain ⟨hmem, rfl⟩ := mem_of_find hrow
      obtain ⟨r', hmem', hid, -, hstatus⟩ := (hfirst t' (by simp)).kept r hmem
      have hrow' := getById_of_mem (h t' (by simp)) hmem'
      rw [hid] at hrow'
      rw [List.filterMap_cons_some (b := r'.status) (by rw [hrow']; rfl)]
      intro b hb
      rw [List.head?_cons, Option.mem_some_iff] at hb
      rw [← hb]
      exact hstatus

/-- In every run: one active row of a version at most, the rows take allowed
steps only, a 202 is for a row that was active while the request ran, and every
inserted row goes to the fetcher once, by the handler that inserted it: one task
runs `run_fetch` for it. -/
theorem fetches_are_deduped {cfg : civitai_fetch.Config} {t₀ : Table} (h : t₀.Indexed)
    {labels : List Label} {s : State} (hrun : exec (next cfg) (boot t₀) labels = some s) :
    (∀ t ∈ s.history, t.Indexed) ∧
    s.history.IsChain Evolves ∧
    (∀ id, (statuses s.history id).IsChain fun a b => b = a ∨ b ∈ allowedTransitions a) ∧
    (∀ c ∈ s.handlers, ∀ id deduped, c.rest = .ret (.accepted id deduped) →
      Seen s.history c.parsed c.since id) ∧
    s.table.map (·.id) = t₀.map (·.id) ++ s.created.map (·.1) ∧
    s.enqueued ⊆ s.created ∧ (s.enqueued.map (·.1)).Nodup ∧
    (∀ id i, (id, i) ∈ s.created → (id, i) ∈ s.enqueued ∨
      ∃ c, s.handlers[i]? = some c ∧ c.rest = enqueuing id) ∧
    List.Forall₂ (fun handed task => Co.LeftOf (civitai_fetch.runFetch cfg handed.1) task)
      s.enqueued s.tasks := by
  have hsound : Sound t₀ s := invariant_of_next (fun _ _ _ => sound_next) (sound_boot h) hrun
  refine ⟨hsound.indexed, hsound.evolves, path_of_evolves hsound.indexed hsound.evolves, ?_,
    hsound.rows, hsound.handed, ?_, ?_,
    invariant_of_next (fun _ _ _ => started_next) (started_boot cfg t₀) hrun⟩
  · intro c hc id deduped hrest
    obtain ⟨i, hi⟩ := List.mem_iff_getElem?.mp hc
    obtain ⟨p, rest, since⟩ := c
    subst hrest
    cases hsound.stands i p _ since hi with
    | accepted _ _ hdone hseen => exact hseen
  · have hkeyed := hsound.current.keyed
    rw [hsound.rows, List.nodup_append] at hkeyed
    refine (List.nodup_map_iff_inj_on hsound.once).mpr ?_
    intro a ha b hb hab
    exact List.inj_on_of_nodup_map hkeyed.2.1 (hsound.handed ha) (hsound.handed hb) hab
  · intro id i hid
    rcases hi : s.handlers[i]? with _ | ⟨p, rest, since⟩
    · have hlt := hsound.known id i hid
      have hlen := List.getElem?_eq_none_iff.mp hi
      omega
    cases hsound.stands i p rest since hi with
    | looking hidle => exact absurd hid (hidle id)
    | creating hidle => exact absurd hid (hidle id)
    | losing hidle => exact absurd hid (hidle id)
    | enqueuing id' hmine hnew hseen =>
      rw [(hmine id).mp hid]
      exact Or.inr ⟨_, rfl, rfl⟩
    | accepted id' deduped hdone hseen => exact Or.inl (hdone id hid)
    | refused statusCode code message hidle => exact absurd hid (hidle id)
    | raised e hidle => exact absurd hid (hidle id)

/-- Two requests for one version race: both look, the first inserts, the second
is refused and looks again. -/
def raced : List Label :=
  let p : Parsed := ⟨"https://civitai.com/models/1?modelVersionId=7", some 1, 7⟩
  [.post p, .post p, .handle 0 1 "" none, .handle 1 1 "" none, .handle 0 2 "a" none,
    .handle 1 3 "b" none, .handle 1 4 "" none, .handle 0 5 "" none]

theorem indexed_nil : Table.Indexed [] := by
  refine ⟨List.nodup_nil, fun r hr => ?_⟩
  cases hr

theorem fetches_are_deduped_raced : ∃ s,
    exec (next ⟨["loras"], 10, "3600", fun _ => ""⟩) (boot []) raced = some s ∧
    s.created = [("a", 0)] ∧ s.enqueued = [("a", 0)] ∧ s.tasks.length = 1 ∧
    ∀ t ∈ s.history, t.Indexed := by
  have hghosts : (exec (next ⟨["loras"], 10, "3600", fun _ => ""⟩) (boot []) raced).map
      (fun s => (s.created, s.enqueued)) = some ([("a", 0)], [("a", 0)]) := by
    rfl
  obtain ⟨s, hs, hghosts⟩ := Option.map_eq_some_iff.mp hghosts
  obtain ⟨hcreated, henqueued⟩ := Prod.mk.inj hghosts
  obtain ⟨hindexed, -, -, -, -, -, -, -, htasks⟩ := fetches_are_deduped indexed_nil hs
  have hlen := htasks.length_eq
  rw [henqueued] at hlen
  exact ⟨s, hs, hcreated, henqueued, hlen.symm, hindexed⟩

end image_gen.fetch_dedupe

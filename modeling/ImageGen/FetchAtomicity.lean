-- One fetch task to its end, whatever raises on the way: what it leaves on the
-- disk and in its row.
import ImageGen.CivitaiFetch
import ImageGen.FetchDedupe

namespace image_gen.fetch_atomicity

open image_gen.coroutine image_gen.fetch_table image_gen.civitai_fetch

/-! ## The steps of the task -/

structure World where
  table : Table
  /-- The file that the fetch downloads to is on the disk. -/
  tmp : Bool
  /-- The fetch has put a file at its destination. -/
  installed : Bool

/-- What an operation meets. A failure may come before or after its effect: a
write that raises may be in the table, a download has or has not opened its file. -/
structure Meet where
  now : Nat
  fault : Option (Exc × Bool)
  written : Nat
  answer : (op : Op) → op.Ans

def effect (m : Meet) : (op : Op) → World → Except Exc op.Ans × World
  | .streamDownload id url tmp size, w => (.ok (m.answer (.streamDownload id url tmp size)),
      { w with tmp := true, table := w.table.setProgress id m.written m.now })
  | .unlinkQuiet _, w => (.ok (), { w with tmp := false })
  | .replace _ _, w => (.ok (), { w with tmp := false, installed := true })
  | op, w =>
    let r := fetch_dedupe.execFetch ⟨m.now, none, m.written, fun op => .ok (m.answer op)⟩ op w.table
    (r.1, { w with table := r.2 })

/-- An operation may raise before or after its effect. -/
def faulty (m : Meet) (op : Op) (w : World) : Except Exc op.Ans × World :=
  match m.fault with
  | none => effect m op w
  | some (e, true) => (.error e, (effect m op w).2)
  | some (e, false) => (.error e, w)

/-- The write that records a failure succeeds, but a task can be cancelled while it
waits for it, and it may then end before the write is in the table; the shield of
the cancellation handler keeps the write alive and not the wait. `_unlink_quiet`
raises nothing. -/
def exec (m : Meet) : (op : Op) → World → Except Exc op.Ans × World
  | .setFailed id code message handover, w =>
    match m.fault with
    | some (.cancelled, true) =>
      (.error .cancelled, (effect m (.setFailed id code message handover) w).2)
    | some (.cancelled, false) => (.error .cancelled, w)
    | _ => effect m (.setFailed id code message handover) w
  | .unlinkQuiet path, w => if m.fault.isNone then effect m (.unlinkQuiet path) w else (.ok (), w)
  | op, w => faulty m op w

/-! ## What the task is to leave -/

/-- The table that a task starts on, with its row. -/
structure Start where
  table : Table
  row : LoraFetch
  keyed : (table.map (·.id)).Nodup
  present : table.getById row.id = some row
  pending : row.status = .pending

/-- The row has a status, and the other rows are as they were. -/
structure Row (s : Start) (status : FetchStatus) (t : Table) : Prop where
  own : ∃ r, t.getById s.row.id = some r ∧ r.status = status
  others : t.filter (fun r => r.id ≠ s.row.id) = s.table.filter fun r => r.id ≠ s.row.id

/-- The row is done, or it failed and nothing of the fetch is on the disk. -/
def Atomic (s : Start) (w : World) : Prop :=
  Row s .done w.table ∨ (Row s .failed w.table ∧ w.tmp = false ∧ w.installed = false)

/-- No `except` clause inside `_fetch` takes the exception of this operation. -/
def leaves : Op → Exc → Bool
  | .fetchMetadata _, e => (metadataFailure e).isNone
  | .evictFor _, .insufficientStorage _ => false
  | .validateDownloadUrl _, .value _ => false
  | .streamDownload _ _ _ _, e => !downloadCatches e
  | _, _ => true

/-- The row is done or failed. -/
def ended (t : Table) (id : String) : Bool := (t.getById id).all fun r => !decide r.Active

/-- The step does not break it: what raises does so inside `_fetch`, and not
while a file of the fetch is on the disk, except a download whose exception has a
handler, and `done` after its commit. The unlink of a file succeeds. Once an
exception has left `_fetch`, the wait for the write that records it is not
cancelled before that write is in the table. -/
def Harmless (w : World) (left : Bool) (m : Meet) (op : Op) : Prop :=
  match m.fault with
  | none => True
  | some (e, took) =>
    match op with
    | .getById _ => False
    | .acquire _ => False
    | .setFailed id _ _ _ =>
      left = true → e = .cancelled → took = false → ended w.table id = true
    | .release _ => True
    | .streamDownload _ _ _ _ => took = true → downloadCatches e = true
    | .unlinkQuiet _ => w.tmp = false
    | .setStatus _ .done => took = false → w.installed = false
    | _ => w.tmp = false ∧ w.installed = false

instance (w : World) (left : Bool) (m : Meet) (op : Op) : Decidable (Harmless w left m op) := by
  unfold Harmless
  split
  · infer_instance
  · split <;> infer_instance

/-! ## Runs -/

/-- A run, with the number of its next operation, whether an exception has left
`_fetch`, and whether every step so far was harmless. -/
structure Run where
  world : World
  clock : Nat
  left : Bool
  harmless : Bool

def leftAfter {op : Op} : Except Exc op.Ans → Bool → Bool
  | .ok _, left => left
  | .error e, left => left || leaves op e

def stepRun (env : Nat → Meet) (op : Op) (r : Run) : Except Exc op.Ans × Run :=
  ((exec (env r.clock) op r.world).1,
    { world := (exec (env r.clock) op r.world).2
      clock := r.clock + 1
      left := leftAfter (exec (env r.clock) op r.world).1 r.left
      harmless := r.harmless && decide (Harmless r.world r.left (env r.clock) op) })

def first (s : Start) : Run := ⟨⟨s.table, false, false⟩, 0, false, true⟩

/-- The task of the row, to its end. -/
def runTask (cfg : Config) (env : Nat → Meet) (s : Start) : Run :=
  ((runFetch cfg s.row.id).run (stepRun env) (first s)).2

/-! ## The row -/

section Row

variable {s : Start} {status target : FetchStatus} {t : Table} {f : LoraFetch → LoraFetch}

theorem row_update (h : Row s status t) (hf : ∀ r, (f r).id = r.id)
    (hstatus : ∀ r, r.status = status → (f r).status = target) :
    Row s target (t.update s.row.id f) := by
  obtain ⟨r, hr, hst⟩ := h.own
  refine ⟨⟨f r, ?_, hstatus r hst⟩, ?_⟩
  · rw [getById_update hf, hr]
    rfl
  · rw [filter_update hf]
    exact h.others

theorem row_transition (h : Row s status t) (hf : ∀ r, (f r).id = r.id)
    (hstatus : ∀ r, (f r).status = target) (hallowed : target ∈ allowedTransitions status) :
    ∃ t', t.transition s.row.id target f = .ok t' ∧ Row s target t' := by
  obtain ⟨r, hr, hst⟩ := h.own
  exact ⟨t.update s.row.id f, transition_allowed hr (hst ▸ hallowed),
    row_update h hf fun r _ => hstatus r⟩

theorem row_refused (h : Row s status t) (hrefused : target ∉ allowedTransitions status) :
    t.transition s.row.id target f = .error (.invalidTransition status target) := by
  obtain ⟨r, hr, rfl⟩ := h.own
  exact transition_refused hr hrefused

theorem row_unique (h : Row s status t) (h' : Row s target t) : status = target := by
  obtain ⟨r, hr, hst⟩ := h.own
  obtain ⟨r', hr', hst'⟩ := h'.own
  rw [hr, Option.some.injEq] at hr'
  rw [← hst, ← hst', hr']

end Row

/-! ## Where the task stands -/

section Steps

variable {s : Start} {status target : FetchStatus} {tmp installed : Bool} {r r' : Run} {op : Op}

/-- All was harmless so far. -/
structure At (s : Start) (status : FetchStatus) (tmp installed : Bool) (r : Run) : Prop where
  row : Row s status r.world.table
  tmp : r.world.tmp = tmp
  installed : r.world.installed = installed
  left : r.left = false
  harmless : r.harmless = true

/-- The row waits for its failure, and a file is on the disk exactly if something
was not harmless. -/
structure Halted (s : Start) (left : Bool) (r : Run) : Prop where
  row : ∃ status, status.Active ∧ Row s status r.world.table
  left : r.left = left
  harmless : r.harmless = true ↔ r.world.tmp = false ∧ r.world.installed = false

def Settled (s : Start) (r : Run) : Prop := Atomic s r.world ↔ r.harmless = true

/-- The row is done or failed already. -/
structure Ended (s : Start) (r : Run) : Prop where
  row : ∃ status, ¬ status.Active ∧ Row s status r.world.table
  settled : Settled s r

theorem ended_of_done (h : Row s .done r.world.table) (hharm : r.harmless = true) : Ended s r :=
  ⟨⟨.done, by decide, h⟩, iff_of_true (.inl h) hharm⟩

theorem ended_of_failed (h : Row s .failed r.world.table)
    (hfiles : r.harmless = true ↔ r.world.tmp = false ∧ r.world.installed = false) :
    Ended s r := by
  refine ⟨⟨.failed, by decide, h⟩, ?_⟩
  rw [Settled, hfiles]
  constructor
  · rintro (hdone | ⟨-, hnone⟩)
    · cases row_unique h hdone
    · exact hnone
  · exact fun hnone => .inr ⟨h, hnone⟩

/-- A row that is active was not brought to its end. -/
theorem settled_of_active (h : Row s status r.world.table) (hact : status.Active)
    (hbroken : r.harmless = false) : Settled s r := by
  refine iff_of_false ?_ (by simp [hbroken])
  rintro (hdone | ⟨hfailed, -⟩)
  · exact hact.1 (row_unique h hdone)
  · exact hact.2 (row_unique h hfailed)

/-- One operation with what it meets, at any count. -/
def Does (op : Op) (r : Run) (a : Except Exc op.Ans) (r' : Run) : Prop :=
  ∃ m, a = (exec m op r.world).1 ∧ r'.world = (exec m op r.world).2 ∧
    r'.left = leftAfter a r.left ∧
    r'.harmless = (r.harmless && decide (Harmless r.world r.left m op))

theorem does_stepRun (env : Nat → Meet) (op : Op) (r : Run) :
    Does op r (stepRun env op r).1 (stepRun env op r).2 :=
  ⟨env r.clock, rfl, rfl, rfl, rfl⟩

/-- What holds for every way on, after an operation. -/
abbrev Then {α : Type} (p : Prog α) (Q : Except Exc α → Run → Prop) (r : Run) : Prop :=
  p.Holds Does (fun _ => True) Q r

/-- A step of `_fetch`, which goes on at `A`. -/
def Goes {op : Op} (s : Start) (A : Run → Prop) : Except Exc op.Ans → Run → Prop
  | .ok _, r => A r
  | .error e, r => Halted s (leaves op e) r

/-- Operations that touch neither the status of the row nor the file. -/
def Gentle (s : Start) : Op → Prop
  | .setTotalBytes id _ => id = s.row.id
  | .setDestName id _ => id = s.row.id
  | .fetchMetadata _ => True
  | .expectedSize _ => True
  | .mkdir _ => True
  | .isFile _ => True
  | .writeSidecar _ _ => True
  | .diskFree => True
  | .evictFor _ => True
  | .validateDownloadUrl _ => True
  | _ => False

theorem effect_gentle (hop : Gentle s op) (m : Meet) {w : World} (h : Row s status w.table) :
    (effect m op w).1 = .ok (m.answer op) ∧ Row s status (effect m op w).2.table ∧
      (effect m op w).2.tmp = w.tmp ∧ (effect m op w).2.installed = w.installed := by
  cases op with
  | setTotalBytes id total =>
    obtain rfl : id = s.row.id := hop
    exact ⟨rfl, row_update h (fun _ => rfl) fun _ hst => hst, rfl, rfl⟩
  | setDestName id name =>
    obtain rfl : id = s.row.id := hop
    exact ⟨rfl, row_update h (fun _ => rfl) fun _ hst => hst, rfl, rfl⟩
  | fetchMetadata _ => exact ⟨rfl, h, rfl, rfl⟩
  | expectedSize _ => exact ⟨rfl, h, rfl, rfl⟩
  | mkdir _ => exact ⟨rfl, h, rfl, rfl⟩
  | isFile _ => exact ⟨rfl, h, rfl, rfl⟩
  | writeSidecar _ _ => exact ⟨rfl, h, rfl, rfl⟩
  | diskFree => exact ⟨rfl, h, rfl, rfl⟩
  | evictFor _ => exact ⟨rfl, h, rfl, rfl⟩
  | validateDownloadUrl _ => exact ⟨rfl, h, rfl, rfl⟩
  | getById _ => cases hop
  | setStatus _ _ => cases hop
  | setFailed _ _ _ _ => cases hop
  | acquire _ => cases hop
  | release _ => cases hop
  | streamDownload _ _ _ _ => cases hop
  | unlinkQuiet _ => cases hop
  | replace _ _ => cases hop

theorem exec_gentle (hop : Gentle s op) (m : Meet) (w : World) :
    exec m op w = faulty m op w := by
  cases op <;> first | rfl | cases hop

/-- The three ways of an operation that may raise. -/
theorem does_cases (hexec : ∀ m w, exec m op w = faulty m op w) {a : Except Exc op.Ans}
    (h : Does op r a r') :
    ∃ m, (m.fault = none ∧ a = (effect m op r.world).1 ∧ r'.world = (effect m op r.world).2 ∧
        r'.left = leftAfter a r.left ∧ r'.harmless = r.harmless) ∨
      ∃ e took, m.fault = some (e, took) ∧ a = .error e ∧
        r'.world = (if took then (effect m op r.world).2 else r.world) ∧
        r'.left = (r.left || leaves op e) ∧
        r'.harmless = (r.harmless && decide (Harmless r.world r.left m op)) := by
  obtain ⟨m, rfl, hworld, hleft, hharm⟩ := h
  rw [hexec] at hworld hleft ⊢
  refine ⟨m, ?_⟩
  unfold faulty at hworld hleft ⊢
  rcases hfault : m.fault with _ | ⟨e, took⟩ <;> rw [hfault] at hworld hleft
  · have hfine : Harmless r.world r.left m op := by simp [Harmless, hfault]
    exact .inl ⟨rfl, rfl, hworld, hleft, by simp [hharm, hfine]⟩
  · cases took with
    | false => exact .inr ⟨e, false, rfl, rfl, hworld, hleft, hharm⟩
    | true => exact .inr ⟨e, true, rfl, rfl, hworld, hleft, hharm⟩

theorem then_gentle (op : Op) (hop : Gentle s op) (h : At s status tmp installed r)
    (hact : status.Active) :
    Then (ask op) (Goes s (At s status tmp installed)) r := by
  refine Co.holds_call op r fun a r' hdoes => ⟨trivial, ?_⟩
  obtain ⟨m, hways⟩ := does_cases (exec_gentle hop) hdoes
  obtain ⟨heffect, hrow, htmp, hinst⟩ := effect_gentle hop m h.row
  rcases hways with ⟨-, rfl, hworld, hleft, hharm⟩ | ⟨e, took, hfault, rfl, hworld, hleft, hharm⟩
  · rw [heffect] at hleft ⊢
    refine ⟨hworld ▸ hrow, by rw [hworld, htmp, h.tmp], by rw [hworld, hinst, h.installed], ?_, ?_⟩
    · rw [hleft]
      exact h.left
    · rw [hharm, h.harmless]
  · have hharmless : Harmless r.world r.left m op ↔
        r.world.tmp = false ∧ r.world.installed = false := by
      unfold Harmless
      rw [hfault]
      cases op <;> first | exact Iff.rfl | cases hop
    rw [h.harmless, Bool.true_and] at hharm
    rw [h.left, Bool.false_or] at hleft
    cases took with
    | false =>
      rw [if_neg Bool.false_ne_true] at hworld
      refine ⟨⟨status, hact, hworld ▸ h.row⟩, hleft, ?_⟩
      rw [hworld, hharm, decide_eq_true_iff, hharmless]
    | true =>
      rw [if_pos rfl] at hworld
      refine ⟨⟨status, hact, hworld ▸ hrow⟩, hleft, ?_⟩
      rw [hworld, htmp, hinst, hharm, decide_eq_true_iff, hharmless]

theorem effect_setStatus {m : Meet} {w : World} (h : Row s status w.table)
    (hallowed : target ∈ allowedTransitions status) :
    (effect m (.setStatus s.row.id target) w).1 = .ok () ∧
      Row s target (effect m (.setStatus s.row.id target) w).2.table ∧
      (effect m (.setStatus s.row.id target) w).2.tmp = w.tmp ∧
      (effect m (.setStatus s.row.id target) w).2.installed = w.installed := by
  obtain ⟨t', ht', hrow⟩ := row_transition (f := fun r => { r with
    status := target, updatedAt := m.now }) h (fun _ => rfl) (fun _ => rfl) hallowed
  have heffect : effect m (.setStatus s.row.id target) w = (.ok (), { w with table := t' }) := by
    simp [effect, fetch_dedupe.execFetch, Table.setStatus, ht', fetch_dedupe.tableWrite]
  rw [heffect]
  exact ⟨rfl, hrow, rfl, rfl⟩

/-- A step of the row to another active status. -/
theorem then_setStatus (target : FetchStatus) (htarget : target.Active)
    (hallowed : target ∈ allowedTransitions status)
    (h : At s status tmp installed r) :
    Then (ask (.setStatus s.row.id target)) (Goes s (At s target tmp installed)) r := by
  refine Co.holds_call _ r fun a r' hdoes => ⟨trivial, ?_⟩
  obtain ⟨m, hways⟩ := does_cases (fun _ _ => rfl) hdoes
  obtain ⟨heffect, hrow, htmp, hinst⟩ := effect_setStatus (m := m) h.row hallowed
  rcases hways with ⟨-, rfl, hworld, hleft, hharm⟩ | ⟨e, took, hfault, rfl, hworld, hleft, hharm⟩
  · rw [heffect] at hleft ⊢
    refine ⟨hworld ▸ hrow, by rw [hworld, htmp, h.tmp], by rw [hworld, hinst, h.installed], ?_, ?_⟩
    · rw [hleft]
      exact h.left
    · rw [hharm, h.harmless]
  · have hharmless : Harmless r.world r.left m (.setStatus s.row.id target) ↔
        r.world.tmp = false ∧ r.world.installed = false := by
      unfold Harmless
      rw [hfault]
      cases target <;> first | exact Iff.rfl | exact absurd rfl htarget.1
    rw [h.harmless, Bool.true_and] at hharm
    rw [h.left, Bool.false_or] at hleft
    cases took with
    | false =>
      rw [if_neg Bool.false_ne_true] at hworld
      refine ⟨⟨status, active_of_allowed hallowed, hworld ▸ h.row⟩, hleft, ?_⟩
      rw [hworld, hharm, decide_eq_true_iff, hharmless]
    | true =>
      rw [if_pos rfl] at hworld
      refine ⟨⟨target, htarget, hworld ▸ hrow⟩, hleft, ?_⟩
      rw [hworld, htmp, hinst, hharm, decide_eq_true_iff, hharmless]

/-- The last step of the row. It may raise after its commit. -/
theorem then_done (hallowed : FetchStatus.done ∈ allowedTransitions status)
    (h : At s status false installed r) :
    Then (ask (.setStatus s.row.id .done)) (fun a r' =>
      match a with
      | .ok _ => Settled s r'
      | .error _ => Halted s true r' ∨ Ended s r') r := by
  refine Co.holds_call _ r fun a r' hdoes => ⟨trivial, ?_⟩
  obtain ⟨m, hways⟩ := does_cases (fun _ _ => rfl) hdoes
  obtain ⟨heffect, hrow, htmp, hinst⟩ := effect_setStatus (m := m) h.row hallowed
  rcases hways with ⟨-, rfl, hworld, hleft, hharm⟩ | ⟨e, took, hfault, rfl, hworld, hleft, hharm⟩
  · simp only [heffect]
    exact (ended_of_done (hworld ▸ hrow) (by rw [hharm, h.harmless])).settled
  · have hharmless : Harmless r.world r.left m (.setStatus s.row.id .done) ↔
        (took = false → r.world.installed = false) := by
      unfold Harmless
      rw [hfault]
    rw [h.harmless, Bool.true_and] at hharm
    rw [h.left, Bool.false_or] at hleft
    cases took with
    | false =>
      rw [if_neg Bool.false_ne_true] at hworld
      refine .inl ⟨⟨status, active_of_allowed hallowed, hworld ▸ h.row⟩, hleft, ?_⟩
      rw [hworld, hharm, decide_eq_true_iff, hharmless, h.tmp]
      simp
    | true =>
      rw [if_pos rfl] at hworld
      refine .inr (ended_of_done (hworld ▸ hrow) ?_)
      rw [hharm, decide_eq_true_iff, hharmless]
      exact nofun

/-- The download. One that raises has or has not opened its file. -/
theorem then_stream (h : At s .downloading false false r) (url : String)
    (path : file_tree.Path) (size : Int) :
    Then (ask (.streamDownload s.row.id url path size)) (fun a r' =>
      match a with
      | .ok _ => At s .downloading true false r'
      | .error e =>
        if downloadCatches e then ∃ opened, At s .downloading opened false r'
        else Halted s true r') r := by
  refine Co.holds_call _ r fun a r' hdoes => ⟨trivial, ?_⟩
  obtain ⟨m, hways⟩ := does_cases (fun _ _ => rfl) hdoes
  have hrow : Row s .downloading (r.world.table.setProgress s.row.id m.written m.now) :=
    row_update h.row (fun _ => rfl) fun _ hst => hst
  rcases hways with ⟨-, rfl, hworld, hleft, hharm⟩ | ⟨e, took, hfault, rfl, hworld, hleft, hharm⟩
  · have hfile : r'.world.tmp = true ∧ r'.world.installed = r.world.installed := by
      rw [hworld]
      exact ⟨rfl, rfl⟩
    exact ⟨hworld ▸ hrow, hfile.1, hfile.2.trans h.installed, hleft.trans h.left,
      hharm.trans h.harmless⟩
  · have hharmless : Harmless r.world r.left m (.streamDownload s.row.id url path size) ↔
        (took = true → downloadCatches e = true) := by
      unfold Harmless
      rw [hfault]
    rw [h.harmless, Bool.true_and] at hharm
    rw [h.left, Bool.false_or] at hleft
    have hafter : Row s .downloading r'.world.table ∧ r'.world.tmp = took ∧
        r'.world.installed = false := by
      rw [hworld]
      cases took with
      | false => exact ⟨h.row, h.tmp, h.installed⟩
      | true => exact ⟨hrow, rfl, h.installed⟩
    obtain ⟨hrow', htmp, hinst⟩ := hafter
    dsimp only [leaves] at hleft ⊢
    split
    · rename_i hcaught
      refine ⟨took, hrow', htmp, hinst, ?_, ?_⟩
      · rw [hleft]
        simpa using hcaught
      · rw [hharm, decide_eq_true_iff, hharmless]
        exact fun _ => hcaught
    · rename_i hcaught
      refine ⟨⟨.downloading, by decide, hrow'⟩, ?_, ?_⟩
      · rw [hleft]
        simpa using hcaught
      · rw [hharm, decide_eq_true_iff, hharmless, htmp, hinst]
        simp [hcaught]

/-- The unlink, which may leave the file. -/
theorem then_unlink (h : At s status tmp false r) (hact : status.Active)
    (path : file_tree.Path) :
    Then (ask (.unlinkQuiet path)) (fun a r' =>
      match a with
      | .ok _ => Halted s false r'
      | .error _ => False) r := by
  refine Co.holds_call _ r fun a r' hdoes => ⟨trivial, ?_⟩
  obtain ⟨m, rfl, hworld, hleft, hharm⟩ := hdoes
  rw [h.harmless, Bool.true_and] at hharm
  simp only [exec] at hworld hleft ⊢
  rcases hfault : m.fault with _ | ⟨e, took⟩ <;> rw [hfault] at hworld hleft
  · simp only [Option.isNone_none, if_true] at hworld hleft ⊢
    refine ⟨⟨status, hact, hworld ▸ h.row⟩, hleft.trans h.left, ?_⟩
    have hfine : Harmless r.world r.left m (.unlinkQuiet path) := by simp [Harmless, hfault]
    rw [hharm, hworld]
    simp [effect, hfine, h.installed]
  · simp only [Option.isNone_some, Bool.false_eq_true, if_false] at hworld hleft ⊢
    refine ⟨⟨status, hact, hworld ▸ h.row⟩, hleft.trans h.left, ?_⟩
    have hiff : Harmless r.world r.left m (.unlinkQuiet path) ↔ r.world.tmp = false := by
      simp [Harmless, hfault]
    rw [hharm, hworld, decide_eq_true_iff, hiff, h.installed]
    simp

theorem then_replace (h : At s status true false r) (hact : status.Active)
    (src dst : file_tree.Path) :
    Then (ask (.replace src dst)) (Goes s (At s status false true)) r := by
  refine Co.holds_call _ r fun a r' hdoes => ⟨trivial, ?_⟩
  obtain ⟨m, hways⟩ := does_cases (fun _ _ => rfl) hdoes
  rcases hways with ⟨-, rfl, hworld, hleft, hharm⟩ | ⟨e, took, hfault, rfl, hworld, hleft, hharm⟩
  · refine ⟨hworld ▸ h.row, ?_, ?_, hleft.trans h.left, hharm.trans h.harmless⟩
    · rw [hworld]
      rfl
    · rw [hworld]
      rfl
  · have hharmless : ¬ Harmless r.world r.left m (.replace src dst) := by
      simp [Harmless, hfault, h.tmp]
    rw [h.harmless, Bool.true_and, decide_eq_false hharmless] at hharm
    rw [h.left, Bool.false_or] at hleft
    cases took with
    | false =>
      rw [if_neg Bool.false_ne_true] at hworld
      refine ⟨⟨status, hact, hworld ▸ h.row⟩, hleft, ?_⟩
      simp [hharm, hworld, h.tmp]
    | true =>
      rw [if_pos rfl] at hworld
      refine ⟨⟨status, hact, hworld ▸ h.row⟩, hleft, ?_⟩
      simp [hharm, hworld, effect]

end Steps

/-! ## The write that records a failure -/

section Failing

variable {s : Start} {left : Bool} {r r' : Run} {m : Meet} {w : World}

theorem ended_of_row {status : FetchStatus} (h : Row s status w.table) (hend : ¬ status.Active) :
    ended w.table s.row.id = true := by
  obtain ⟨row, hrow, rfl⟩ := h.own
  simp only [ended, hrow, Option.all_some, Bool.not_eq_true', decide_eq_false_iff_not]
  exact hend

theorem not_ended_of_row {status : FetchStatus} (h : Row s status w.table)
    (hact : status.Active) : ended w.table s.row.id = false := by
  obtain ⟨row, hrow, rfl⟩ := h.own
  simp only [ended, hrow, Option.all_some, Bool.not_eq_false', decide_eq_true_eq]
  exact hact

/-- Outside the handlers of `_run`, and with the write in the table, all is harmless. -/
theorem harmless_setFailed (id code message : String) (handover : Bool)
    (h : left = false ∨ m.fault ≠ some (.cancelled, false) ∨ ended w.table id = true) :
    Harmless w left m (.setFailed id code message handover) := by
  unfold Harmless
  rcases hfault : m.fault with _ | ⟨e, took⟩
  · trivial
  · intro hleft he htook
    rcases h with h | h | h
    · rw [h] at hleft
      cases hleft
    · rw [hfault, he, htook] at h
      exact absurd rfl h
    · exact h

/-- The task waits for the write, or it is cancelled before or after the write is in
the table. -/
theorem exec_setFailed (m : Meet) (id code message : String) (handover : Bool) (w : World) :
    (m.fault = some (.cancelled, false) ∧
      exec m (.setFailed id code message handover) w = (.error .cancelled, w)) ∨
    (m.fault ≠ some (.cancelled, false) ∧
      (exec m (.setFailed id code message handover) w).2 =
        (effect m (.setFailed id code message handover) w).2 ∧
      ((exec m (.setFailed id code message handover) w).1 =
          (effect m (.setFailed id code message handover) w).1 ∨
        (exec m (.setFailed id code message handover) w).1 = .error .cancelled)) := by
  rcases hfault : m.fault with _ | ⟨e, took⟩
  · exact .inr ⟨nofun, by simp [exec, hfault], by simp [exec, hfault]⟩
  · by_cases he : e = .cancelled
    · subst he
      cases took with
      | false => exact .inl ⟨rfl, by simp [exec, hfault]⟩
      | true => exact .inr ⟨by simp, by simp [exec, hfault], by simp [exec, hfault]⟩
    · refine .inr ⟨by simp [he], ?_, .inl ?_⟩ <;>
      · unfold exec
        rw [hfault]
        cases e <;> first | rfl | exact absurd rfl he

theorem effect_setFailed {status : FetchStatus} (h : Row s status w.table) (hact : status.Active)
    (code message : String) (handover : Bool) :
    (effect m (.setFailed s.row.id code message handover) w).1 = .ok () ∧
      Row s .failed (effect m (.setFailed s.row.id code message handover) w).2.table ∧
      (effect m (.setFailed s.row.id code message handover) w).2.tmp = w.tmp ∧
      (effect m (.setFailed s.row.id code message handover) w).2.installed = w.installed := by
  have hallowed : FetchStatus.failed ∈ allowedTransitions status := by
    obtain ⟨hdone, hfailed⟩ := hact
    cases status <;> first | decide | contradiction
  obtain ⟨t', ht', hrow⟩ := row_transition (f := fun r => { r with
    status := .failed, errorCode := some code, errorMessage := some message,
    handover := handover, updatedAt := m.now }) h (fun _ => rfl) (fun _ => rfl) hallowed
  have heffect : effect m (.setFailed s.row.id code message handover) w =
      (.ok (), { w with table := t' }) := by
    simp [effect, fetch_dedupe.execFetch, Table.setFailed, ht', fetch_dedupe.tableWrite]
  rw [heffect]
  exact ⟨rfl, hrow, rfl, rfl⟩

/-- A row that waits for its failure has it, or the wait was cancelled before. -/
theorem does_setFailed (h : Halted s left r) {code message : String} {handover : Bool}
    {a : Except Exc (Op.setFailed s.row.id code message handover).Ans}
    (hdoes : Does (.setFailed s.row.id code message handover) r a r') :
    (Ended s r' ∧ (a = .ok () ∨ a = .error .cancelled)) ∨
      (a = .error .cancelled ∧ if left then Settled s r' else Halted s true r') := by
  obtain ⟨m, rfl, hworld, hleft, hharm⟩ := hdoes
  obtain ⟨status, hact, hrow⟩ := h.row
  rcases exec_setFailed m s.row.id code message handover r.world with
    ⟨hfault, hexec⟩ | ⟨hfault, hexec, hanswer⟩
  · rw [hexec] at hworld hleft ⊢
    refine .inr ⟨rfl, ?_⟩
    cases left with
    | false =>
      have hfine := harmless_setFailed s.row.id code message handover (m := m) (w := r.world)
        (.inl h.left)
      rw [decide_eq_true hfine, Bool.and_true] at hharm
      refine ⟨⟨status, hact, hworld ▸ hrow⟩, ?_, ?_⟩
      · simp [hleft, leftAfter, leaves]
      · rw [hharm, hworld]
        exact h.harmless
    | true =>
      have hbroken : ¬ Harmless r.world r.left m
          (.setFailed s.row.id code message handover) := by
        unfold Harmless
        rw [hfault]
        simp [h.left, not_ended_of_row hrow hact]
      rw [decide_eq_false hbroken, Bool.and_false] at hharm
      exact settled_of_active (hworld ▸ hrow) hact hharm
  · obtain ⟨heffect, hrow', htmp, hinst⟩ :=
      effect_setFailed (m := m) hrow hact code message handover
    have hfine := harmless_setFailed s.row.id code message handover (m := m) (w := r.world)
      (.inr (.inl hfault) : r.left = false ∨ _)
    rw [decide_eq_true hfine, Bool.and_true] at hharm
    rw [hexec] at hworld
    refine .inl ⟨ended_of_failed (hworld ▸ hrow') ?_, ?_⟩
    · rw [hharm, hworld, htmp, hinst]
      exact h.harmless
    · rwa [heffect] at hanswer

/-- A row that is done or failed stays so. -/
theorem then_refused (h : Ended s r) (code message : String) (handover : Bool) :
    Then (ask (.setFailed s.row.id code message handover)) (fun _ r' => Settled s r') r := by
  refine Co.holds_call _ r fun a r' hdoes => ⟨trivial, ?_⟩
  obtain ⟨m, -, hworld, -, hharm⟩ := hdoes
  obtain ⟨status, hend, hrow⟩ := h.row
  have hfine := harmless_setFailed s.row.id code message handover (m := m) (w := r.world)
    (.inr (.inr (ended_of_row hrow hend)) : r.left = false ∨ _)
  rw [decide_eq_true hfine, Bool.and_true] at hharm
  have hnot : FetchStatus.failed ∉ allowedTransitions status := by
    intro hallowed
    exact hend (active_of_allowed hallowed)
  have hrefused : r.world.table.setFailed s.row.id code message handover m.now =
      .error (.invalidTransition status .failed) := row_refused hrow hnot
  have heffect : (effect m (.setFailed s.row.id code message handover) r.world).2 = r.world := by
    simp [effect, fetch_dedupe.execFetch, hrefused, fetch_dedupe.tableWrite]
  have hsame : r'.world = r.world := by
    rcases exec_setFailed m s.row.id code message handover r.world with
      ⟨-, hexec⟩ | ⟨-, hexec, -⟩
    · rw [hworld, hexec]
    · rw [hworld, hexec, heffect]
  have hsettled := h.settled
  unfold Settled at *
  rwa [hsame, hharm]

end Failing

/-! ## The fetch -/

section Fetch

variable {s : Start} {r : Run}

/-- How `_fetch` ends. -/
def Fetched (s : Start) : Except Exc Unit → Run → Prop
  | .ok _, r => Settled s r
  | .error _, r => Halted s true r ∨ Ended s r

/-- An operation with no handlers of its own. -/
theorem then_seq {op : Op} {f : op.Ans → Prog Unit} (A : Run → Prop)
    (hbare : ∀ e, leaves op e = true) (hp : Then (ask op) (Goes s A) r)
    (hf : ∀ x r', A r' → Then (f x) (Fetched s) r') : Then (ask op >>= f) (Fetched s) r := by
  refine Co.holds_bind (hp.mono fun a r' h => ?_)
  cases a with
  | ok x => exact hf x r' h
  | error e =>
    refine .inl ?_
    rw [← hbare e]
    exact h

theorem then_fail (h : Halted s false r) (f : Failure) :
    Then (setFailed s.row f) (Fetched s) r := by
  refine Co.holds_call _ r fun a r' hdoes => ⟨trivial, ?_⟩
  rcases does_setFailed h hdoes with ⟨hended, rfl | rfl⟩ | ⟨rfl, hwaits⟩
  · exact hended.settled
  · exact .inr hended
  · exact .inl hwaits

/-- An operation with handlers, where nothing is on the disk. -/
theorem then_attempt (op : Op) {status : FetchStatus} {f : Exc → Option Failure}
    {rest : op.Ans → Prog Unit} (hop : Gentle s op) (hcatch : ∀ e, leaves op e = (f e).isNone)
    (h : At s status false false r) (hact : status.Active)
    (hrest : ∀ x r', At s status false false r' → Then (rest x) (Fetched s) r') :
    Then (attempt op f >>= orFail s.row rest) (Fetched s) r := by
  refine Co.holds_bind (Co.holds_tryCatch (Co.holds_bind ((then_gentle op hop h hact).mono ?_)))
  intro a r' h'
  cases a with
  | ok x => exact hrest x r' h'
  | error e =>
    have hhalted : Halted s (leaves op e) r' := h'
    rw [hcatch e] at hhalted
    dsimp only
    split
    · rename_i failure hsome
      rw [hsome] at hhalted
      exact then_fail hhalted failure
    · rename_i hnone
      rw [hnone] at hhalted
      exact .inl hhalted

variable (file : PrimaryFile) (metadata : List (String × json.Json)) (name : String)
  (dest : file_tree.Path)

theorem then_finish {installed : Bool} (h : At s .verifying false installed r) :
    Then (finish s.row name) (Fetched s) r := by
  refine then_seq (At s .verifying false installed) (fun _ => rfl)
    (then_gentle (.setDestName s.row.id name) rfl h (by decide)) fun _ r' h' => ?_
  refine (then_done (by decide) h').mono fun a r'' hend => ?_
  cases a <;> exact hend

theorem then_install (tmp : file_tree.Path) (actualSha : String)
    (h : At s .downloading true false r) :
    Then (install s.row file metadata name dest tmp actualSha) (Fetched s) r := by
  refine then_seq (At s .verifying true false) (fun _ => rfl)
    (then_setStatus .verifying (by decide) (by decide) h) fun _ r₁ h₁ => ?_
  split
  · refine Co.holds_bind ((then_unlink h₁ (by decide) tmp).mono fun a r₂ h₂ => ?_)
    cases a with
    | ok _ => exact then_fail h₂ _
    | error e => exact h₂.elim
  · refine then_seq (At s .verifying true false) (fun _ => rfl)
      (then_gentle (.writeSidecar _ _) trivial h₁ (by decide)) fun _ r₂ h₂ => ?_
    refine then_seq (At s .verifying false true) (fun _ => rfl)
      (then_replace h₂ (by decide) tmp dest) fun _ r₃ h₃ => ?_
    exact then_finish name h₃

theorem then_download (cfg : Config) (size : Int) (h : At s .downloading false false r) :
    Then (download cfg s.row file metadata name dest size) (Fetched s) r := by
  refine then_attempt (.validateDownloadUrl _) trivial (fun e => by cases e <;> rfl) h (by decide)
    fun _ r₁ h₁ => ?_
  refine Co.holds_bind (Co.holds_tryCatch (Co.holds_bind ((then_stream h₁ _ _ _).mono ?_)))
  intro a r₂ h₂
  cases a with
  | ok sha => exact then_install file metadata name dest _ sha h₂
  | error e =>
    dsimp only at h₂ ⊢
    rw [← downloadFailure_isSome cfg.downloadOverallTimeoutS] at h₂
    rcases hcaught : downloadFailure cfg.downloadOverallTimeoutS e with _ | failure <;>
      rw [hcaught] at h₂
    · exact .inl h₂
    · obtain ⟨opened, hopened⟩ := h₂
      refine Co.holds_bind ((then_unlink hopened (by decide) _).mono fun a r₃ h₃ => ?_)
      cases a with
      | ok _ => exact then_fail h₃ failure
      | error e => exact h₃.elim

theorem then_takeExisting (h : At s .downloading false false r) :
    Then (takeExisting s.row file metadata name dest) (Fetched s) r := by
  have hlast : ∀ r', At s .downloading false false r' →
      Then (do
        ask (.setDestName s.row.id name)
        ask (.setStatus s.row.id .verifying)
        ask (.setStatus s.row.id .done)) (Fetched s) r' := by
    intro r₁ h₁
    refine then_seq (At s .downloading false false) (fun _ => rfl)
      (then_gentle (.setDestName s.row.id name) rfl h₁ (by decide)) fun _ r₂ h₂ => ?_
    refine then_seq (At s .verifying false false) (fun _ => rfl)
      (then_setStatus .verifying (by decide) (by decide) h₂) fun _ r₃ h₃ => ?_
    refine (then_done (by decide) h₃).mono fun a r₄ hend => ?_
    cases a <;> exact hend
  refine then_seq (At s .downloading false false) (fun _ => rfl)
    (then_gentle (.isFile _) trivial h (by decide)) fun hasSidecar r₁ h₁ => ?_
  dsimp only
  split
  · exact hlast r₁ h₁
  · exact then_seq (At s .downloading false false) (fun _ => rfl)
      (then_gentle (.writeSidecar _ _) trivial h₁ (by decide)) fun _ r₂ h₂ => hlast r₂ h₂

theorem then_makeRoom (size : Int) (rest : Prog Unit) (h : At s .downloading false false r)
    (hrest : ∀ r', At s .downloading false false r' → Then rest (Fetched s) r') :
    Then (makeRoom s.row size rest) (Fetched s) r := by
  refine then_seq (At s .downloading false false) (fun _ => rfl)
    (then_gentle .diskFree trivial h (by decide)) fun free r₁ h₁ => ?_
  split
  · exact then_attempt (.evictFor _) trivial (fun e => by cases e <;> rfl) h₁ (by decide)
      fun _ r₂ h₂ => hrest r₂ h₂
  · exact hrest r₁ h₁

theorem then_fetchFile (cfg : Config) (size : Int) (h : At s .downloading false false r) :
    Then (fetchFile cfg s.row file metadata size) (Fetched s) r := by
  refine then_seq (At s .downloading false false) (fun _ => rfl)
    (then_gentle (.mkdir _) trivial h (by decide)) fun _ r₁ h₁ => ?_
  refine then_seq (At s .downloading false false) (fun _ => rfl)
    (then_gentle (.isFile _) trivial h₁ (by decide)) fun present r₂ h₂ => ?_
  split
  · exact then_takeExisting file metadata _ _ h₂
  · exact then_makeRoom size _ h₂ fun r₃ h₃ => then_download file metadata _ _ cfg size h₃

theorem then_fetchPrimary (cfg : Config) (h : At s .downloading false false r) :
    Then (fetchPrimary cfg s.row metadata) (Fetched s) r := by
  have hhalted : ∀ r', At s .downloading false false r' → Halted s false r' := fun r' h' =>
    ⟨⟨_, by decide, h'.row⟩, h'.left, iff_of_true h'.harmless ⟨h'.tmp, h'.installed⟩⟩
  unfold fetchPrimary
  split
  · exact then_fail (hhalted r h) _
  · refine then_seq (At s .downloading false false) (fun _ => rfl)
      (then_gentle (.expectedSize _) trivial h (by decide)) fun size r₁ h₁ => ?_
    dsimp only
    split
    · exact then_fail (hhalted r₁ h₁) _
    · split
      · exact then_seq (At s .downloading false false) (fun _ => rfl)
          (then_gentle (.setTotalBytes s.row.id _) rfl h₁ (by decide))
          fun _ r₂ h₂ => then_fetchFile _ metadata cfg size h₂
      · exact then_fetchFile _ metadata cfg size h₁

theorem then_fetch (cfg : Config) (h : At s .pending false false r) :
    Then (fetch cfg s.row) (Fetched s) r := by
  refine then_seq (At s .downloading false false) (fun _ => rfl)
    (then_setStatus .downloading (by decide) (by decide) h) fun _ r₁ h₁ => ?_
  exact then_attempt (.fetchMetadata _) trivial (fun _ => rfl) h₁ (by decide)
    fun metadata r₂ h₂ => then_fetchPrimary metadata cfg h₂

theorem then_guarded (cfg : Config) (h : At s .pending false false r) :
    Then (guarded cfg s.row) (fun _ r' => Settled s r') r := by
  have hfail : ∀ (code message : String) (handover : Bool) r',
      (Halted s true r' ∨ Ended s r') →
      Then (ask (.setFailed s.row.id code message handover)) (fun _ r'' => Settled s r'') r' := by
    intro code message handover r' h'
    rcases h' with h' | h'
    · refine Co.holds_call _ r' fun a r'' hdoes => ⟨trivial, ?_⟩
      rcases does_setFailed h' hdoes with ⟨hended, -⟩ | ⟨-, hsettled⟩
      · exact hended.settled
      · exact hsettled
    · exact then_refused h' code message handover
  refine Co.holds_tryCatch ((then_fetch cfg h).mono fun a r' hend => ?_)
  cases a with
  | ok _ => exact hend
  | error e =>
    dsimp only
    split
    · refine Co.holds_bind ((hfail _ _ _ r' hend).mono fun a r'' hsettled => ?_)
      cases a <;> exact hsettled
    · exact hfail _ _ _ r' hend

/-- The end of the task: the semaphore and the lock are given back. -/
theorem then_release (h : Settled s r) (version : Int) :
    Then (ask (.release version)) (fun _ r' => Settled s r') r := by
  refine Co.holds_call _ r fun a r' hdoes => ⟨trivial, ?_⟩
  obtain ⟨m, hways⟩ := does_cases (fun _ _ => rfl) hdoes
  have hsame : r'.world = r.world ∧ r'.harmless = r.harmless := by
    rcases hways with ⟨-, -, hworld, -, hharm⟩ | ⟨e, took, hfault, -, hworld, -, hharm⟩
    · exact ⟨hworld, hharm⟩
    · have hfine : Harmless r.world r.left m (.release version) := by simp [Harmless, hfault]
      rw [decide_eq_true hfine, Bool.and_true] at hharm
      cases took <;> exact ⟨hworld, hharm⟩
  unfold Settled at *
  rwa [hsame.1, hsame.2]

end Fetch

/-! ## The task -/

section Task

variable {s : Start} {r : Run}

/-- Before `_fetch` nothing is on the disk, and what raises leaves the row pending. -/
theorem settled_of_early {op : Op} {m : Meet} {e : Exc} {took : Bool}
    (hrow : Row s .pending r.world.table)
    (hearly : (∃ id, op = .getById id) ∨ ∃ version, op = .acquire version)
    (hfault : m.fault = some (e, took)) (w : World) (before left : Bool)
    (hharm : r.harmless = (before && decide (Harmless w left m op))) : Settled s r := by
  have hbroken : ¬ Harmless w left m op := by
    rcases hearly with ⟨id, rfl⟩ | ⟨version, rfl⟩ <;> simp [Harmless, hfault]
  rw [decide_eq_false hbroken, Bool.and_false] at hharm
  exact settled_of_active hrow (by decide) hharm

/-- With the lock held. -/
theorem then_locked (cfg : Config) (h : At s .pending false false r) :
    Then (do
      tryCatch (guarded cfg s.row) fun e => do
        ask (.release s.row.civitaiVersionId)
        throw e
      ask (.release s.row.civitaiVersionId)) (fun _ r' => Settled s r') r := by
  refine Co.holds_bind (Co.holds_tryCatch ((then_guarded cfg h).mono fun a r₁ h₁ => ?_))
  cases a with
  | ok _ => exact then_release h₁ _
  | error e =>
    refine Co.holds_bind ((then_release h₁ _).mono fun a r₂ h₂ => ?_)
    cases a <;> exact h₂

theorem then_acquire (cfg : Config) (h : At s .pending false false r) :
    Then (do
      ask (.acquire s.row.civitaiVersionId)
      tryCatch (guarded cfg s.row) fun e => do
        ask (.release s.row.civitaiVersionId)
        throw e
      ask (.release s.row.civitaiVersionId)) (fun _ r' => Settled s r') r := by
  refine Co.holds_bind (Co.holds_call _ r fun a r₁ hdoes => ⟨trivial, ?_⟩)
  obtain ⟨m, hways⟩ := does_cases (fun _ _ => rfl) hdoes
  rcases hways with ⟨-, rfl, hworld, hleft, hharm⟩ | ⟨e, took, hfault, rfl, hworld, -, hharm⟩
  · refine then_locked cfg ⟨?_, ?_, ?_, hleft.trans h.left, hharm.trans h.harmless⟩ <;> rw [hworld]
    · exact h.row
    · exact h.tmp
    · exact h.installed
  · have hsame : r₁.world = r.world := by
      rw [hworld]
      cases took <;> rfl
    exact settled_of_early (hsame ▸ h.row) (.inr ⟨_, rfl⟩) hfault _ _ _ hharm

theorem then_runFetch (cfg : Config) (s : Start) :
    Then (runFetch cfg s.row.id) (fun _ r' => Settled s r') (first s) := by
  have hstart : Row s .pending s.table := ⟨⟨s.row, s.present, s.pending⟩, rfl⟩
  refine Co.holds_bind (Co.holds_call _ _ fun a r₁ hdoes => ⟨trivial, ?_⟩)
  obtain ⟨m, hways⟩ := does_cases (fun _ _ => rfl) hdoes
  rcases hways with ⟨-, rfl, hworld, hleft, hharm⟩ | ⟨e, took, hfault, rfl, hworld, -, hharm⟩
  · have hfound : (effect m (.getById s.row.id) (first s).world).1 = .ok (some s.row) := by
      rw [← s.present]
      rfl
    rw [hfound] at hleft
    simp only [hfound]
    refine then_acquire cfg ⟨?_, ?_, ?_, hleft, hharm⟩ <;> rw [hworld]
    · exact hstart
    · rfl
    · rfl
  · have hsame : r₁.world = (first s).world := by
      rw [hworld]
      cases took <;> rfl
    refine settled_of_early ?_ (.inl ⟨_, rfl⟩) hfault _ _ _ hharm
    rw [hsame]
    exact hstart

/-- For every exception at every operation, and a cancellation at each. -/
theorem the_task_is_atomic_iff (cfg : Config) (env : Nat → Meet) (s : Start) :
    Atomic s (runTask cfg env s).world ↔ (runTask cfg env s).harmless = true := by
  have hsettled := Co.run_of_holds (does_stepRun env) (then_runFetch cfg s)
  exact hsettled

end Task

/-! ## What leaves a file behind -/

def firstRow : LoraFetch where
  id := "1f"
  url := "https://civitai.com/models/3?modelVersionId=7"
  civitaiModelId := some 3
  civitaiVersionId := 7
  status := .pending
  progressBytes := 0
  totalBytes := none
  destName := none
  errorCode := none
  errorMessage := none
  handover := false
  createdAt := 0
  updatedAt := 0

def firstStart : Start where
  table := [firstRow]
  row := firstRow
  keyed := by decide
  present := by decide
  pending := rfl

def firstMetadata : List (String × json.Json) :=
  [("files", .arr [.obj [("primary", .bool true), ("name", .str "a.safetensors"),
    ("downloadUrl", .str "https://civitai.com/api/download/models/7"),
    ("hashes", .obj [("SHA256", .str "ab")])]])]

/-- An operation that succeeds. Nothing is at the destination yet. -/
def firstAnswer : (op : Op) → op.Ans
  | .getById _ => none
  | .fetchMetadata _ => firstMetadata
  | .expectedSize _ => 0
  | .isFile _ => false
  | .diskFree => 0
  | .streamDownload _ _ _ _ => "ab"
  | .setStatus _ _ => ()
  | .setFailed _ _ _ _ => ()
  | .setTotalBytes _ _ => ()
  | .setDestName _ _ => ()
  | .acquire _ => ()
  | .release _ => ()
  | .mkdir _ => ()
  | .writeSidecar _ _ => ()
  | .evictFor _ => ()
  | .validateDownloadUrl _ => ()
  | .unlinkQuiet _ => ()
  | .replace _ _ => ()

/-- The task meets one exception, after the effect of operation `n`. -/
def failingAt (n : Nat) (e : Exc) : Nat → Meet := fun clock =>
  ⟨0, if clock = n then some (e, true) else none, 0, firstAnswer⟩

def firstConfig : Config := ⟨["loras"], 100, "3600", fun _ => ""⟩

/-- The task is cancelled in the download, and once more while it waits for the
shielded write. -/
def cancelledTwice : Nat → Meet := fun clock =>
  ⟨0, if clock = 9 ∨ clock = 10 then some (.cancelled, false) else none, 0, firstAnswer⟩

/-- A row that is not done or failed is no atomic end. -/
theorem not_atomic_of_active {s : Start} {w : World} {status : FetchStatus}
    (h : (w.table.getById s.row.id).map (·.status) = some status) (hact : status.Active) :
    ¬ Atomic s w := by
  obtain ⟨row, hrow, rfl⟩ := Option.map_eq_some_iff.mp h
  rintro (⟨⟨r, hr, hst⟩, -⟩ | ⟨⟨⟨r, hr, hst⟩, -⟩, -⟩) <;>
    rw [hrow, Option.some.injEq] at hr <;> subst hr
  · exact hact.1 hst
  · exact hact.2 hst

/-- `httpx.ReadError` in the middle of the download has no handler there, so the
row fails and the file stays. A task that is cancelled while it waits for the
semaphore leaves its row pending, and one that is cancelled twice can end while its
row is downloading. -/
theorem a_read_error_leaves_its_file :
    (¬ Atomic firstStart
        (runTask firstConfig (failingAt 9 (.other "ReadError")) firstStart).world ∧
      (runTask firstConfig (failingAt 9 (.other "ReadError")) firstStart).world.tmp = true) ∧
    ¬ Atomic firstStart (runTask firstConfig (failingAt 1 .cancelled) firstStart).world ∧
    ¬ Atomic firstStart (runTask firstConfig cancelledTwice firstStart).world := by
  have hfile :
      (runTask firstConfig (failingAt 9 (.other "ReadError")) firstStart).world.tmp = true ∧
      ((runTask firstConfig (failingAt 9 (.other "ReadError")) firstStart).world.table.getById
        "1f").map (·.status) = some .failed := by
    decide +kernel
  have hwaits : ((runTask firstConfig (failingAt 1 .cancelled) firstStart).world.table.getById
      firstStart.row.id).map (·.status) = some .pending := by
    decide +kernel
  have hcut : ((runTask firstConfig cancelledTwice firstStart).world.table.getById
      firstStart.row.id).map (·.status) = some .downloading := by
    decide +kernel
  refine ⟨⟨?_, hfile.1⟩, not_atomic_of_active hwaits (by decide),
    not_atomic_of_active hcut (by decide)⟩
  rintro (⟨⟨r, hr, hst⟩, -⟩ | ⟨-, htmp, -⟩)
  · have hstatus := hfile.2
    rw [show "1f" = firstStart.row.id from rfl, hr, Option.map_some, hst] at hstatus
    cases hstatus
  · rw [hfile.1] at htmp
    cases htmp

end image_gen.fetch_atomicity

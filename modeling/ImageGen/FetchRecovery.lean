-- Boot recovery of the LoRA fetches (`app/queue/fetches_recovery.py`): what a service that
-- stopped in the middle of its fetches leaves to the next one. A recovery may be cut off
-- itself, and the one of the next boot goes on with what it left.
import ImageGen.FetchNames
import ImageGen.FileRemovals

namespace image_gen.fetch_recovery

open image_gen.civitai_fetch (destPath stem tmpPath)
open image_gen.coroutine image_gen.fetch_names image_gen.fetch_table image_gen.file_tree

/-! ## The program -/

inductive Exc
  | table (e : TableError)
  | os (message : String)
  /-- A fault of the database, or a cancellation. -/
  | other (message : String)

inductive Op
  | scanNonTerminal
  | setFailed (id errorCode errorMessage : String) (handover : Bool)
  | isDir (p : Path)
  /-- `p.rglob("*.safetensors.tmp")`. -/
  | rglobTmp (p : Path)
  | unlink (p : Path)

@[reducible] def Op.Ans : Op → Type
  | .scanNonTerminal => List LoraFetch
  | .isDir _ => Bool
  | .rglobTmp _ => List Path
  | _ => Unit

abbrev Prog (α : Type) := Co Exc Op Op.Ans α

def ask (op : Op) : Prog op.Ans := Co.call op

structure FetchRecoveryStats where
  rowsHandedOver : Nat
  tmpFilesCleaned : Nat

/-- The loop over the rows. -/
def failAll : List LoraFetch → Prog Unit
  | [] => pure ()
  | row :: rows => do
    ask (.setFailed row.id "service_restarted" "fetcher interrupted by service restart" true)
    failAll rows

/-- `tmp.unlink()`, where an `OSError` is a warning. -/
def unlinkOne (tmp : Path) : Prog Nat :=
  tryCatch (do ask (.unlink tmp); return 1) fun
    | .os _ => return 0
    | e => throw e

/-- The loop over the files. -/
def unlinkAll : List Path → Prog Nat
  | [] => return 0
  | tmp :: rest => do
    let cleaned ← unlinkOne tmp
    let more ← unlinkAll rest
    return cleaned + more

def cleanTmp (civitaiRoot : Path) : Prog Nat := do
  if ← ask (.isDir civitaiRoot) then
    let found ← ask (.rglobTmp civitaiRoot)
    unlinkAll found
  else return 0

/-- `recover_fetches`. -/
def recoverFetches (lorasRoot : Path) : Prog FetchRecoveryStats := do
  let rows ← ask .scanNonTerminal
  failAll rows
  let tmpCleaned ← cleanTmp (civitaiDir lorasRoot)
  return ⟨rows.length, tmpCleaned⟩

/-! ## Its surroundings -/

variable {α : Type}

structure World (α : Type) where
  table : Table
  tree : FileTree α

def tmpSuffix : String := ".safetensors.tmp"

def isTmpName (name : String) : Bool := decide (tmpSuffix.toList <:+ name.toList)

/-- The entries below a directory whose names match the pattern. -/
def tmpEntries (t : FileTree α) (base : Path) : List Path :=
  (t.entries.map (·.1)).filter fun q => base <+: q ∧ base ≠ q ∧ q.getLast?.any isTmpName

/-- Links to directories are not entered. The names of a directory are read before the
first of them is given, so the loop removes nothing that the walk has yet to read. -/
def rglobTmp (t : FileTree α) (dir : Path) : List Path :=
  match t.locate dir with
  | none => []
  | some base => (tmpEntries t base).map fun q => dir ++ q.drop base.length

/-- What an operation may answer, and what it does. The system does not let go of the
entries in `refused`. -/
inductive Step (refused : Path → Prop) :
    (op : Op) → World α → Except Exc op.Ans → World α → Prop
  | scanNonTerminal (w : World α) :
      Step refused .scanNonTerminal w (.ok w.table.scanNonTerminal) w
  | setFailed {w : World α} {id errorCode errorMessage : String} {handover : Bool} {now : Nat}
      {table : Table} (h : w.table.setFailed id errorCode errorMessage handover now = .ok table) :
      Step refused (.setFailed id errorCode errorMessage handover) w (.ok ()) { w with table }
  /-- It raises after its commit. -/
  | setFailedRaises {w : World α} {id errorCode errorMessage : String} {handover : Bool}
      {now : Nat} {table : Table} (message : String)
      (h : w.table.setFailed id errorCode errorMessage handover now = .ok table) :
      Step refused (.setFailed id errorCode errorMessage handover) w (.error (.other message))
        { w with table }
  | setFailedRefused {w : World α} {id errorCode errorMessage : String} {handover : Bool}
      {now : Nat} {e : TableError}
      (h : w.table.setFailed id errorCode errorMessage handover now = .error e) :
      Step refused (.setFailed id errorCode errorMessage handover) w (.error (.table e)) w
  | isDir (w : World α) (p : Path) : Step refused (.isDir p) w (.ok (w.tree.isDir p)) w
  | rglobTmp (w : World α) (p : Path) : Step refused (.rglobTmp p) w (.ok (rglobTmp w.tree p)) w
  | unlink {w : World α} {p : Path} {tree : FileTree α} (h : w.tree.unlink p = some tree)
      (hfree : ∀ e, w.tree.entry p = some e → ¬ refused e) :
      Step refused (.unlink p) w (.ok ()) { w with tree }
  | unlinkFails {w : World α} {p : Path} (message : String)
      (h : w.tree.unlink p = none ∨ ∃ e, w.tree.entry p = some e ∧ refused e) :
      Step refused (.unlink p) w (.error (.os message)) w
  /-- Any other operation may raise before it has done anything. -/
  | fault {op : Op} (w : World α) (message : String) (h : ∀ p, op ≠ .unlink p) :
      Step refused op w (.error (.other message)) w

/-! ## What it does to the world -/

/-- The row that a recovery leaves of an active one. -/
def Handed (r r' : LoraFetch) : Prop :=
  ∃ now, r' = { r with
    status := .failed
    errorCode := some "service_restarted"
    errorMessage := some "fetcher interrupted by service restart"
    handover := true
    updatedAt := now }

/-- A file that a download left under the fetcher's directory. -/
def Leftover (lorasRoot : Path) (t : FileTree α) (q : Path) : Prop :=
  ∃ base, t.locate (civitaiDir lorasRoot) = some base ∧ q ∈ tmpEntries t base ∧ t.isFile q = true

/-- What a recovery may have done when it is cut off. -/
structure Recovers (lorasRoot : Path) (refused : Path → Prop) (w w' : World α) : Prop where
  rows : List.Forall₂ (fun r r' => r' = r ∨ (r.Active ∧ Handed r r')) w.table w'.table
  tree : FileTree.Shrinks w.tree w'.tree
  files : ∀ q, w'.tree.node? q ≠ w.tree.node? q → Leftover lorasRoot w.tree q ∧ ¬ refused q

/-- What it has done when it comes to its end. -/
structure Recovered (lorasRoot : Path) (refused : Path → Prop) (w w' : World α) : Prop where
  rows : List.Forall₂ (fun r r' => (r.Active → Handed r r') ∧ (¬ r.Active → r' = r))
    w.table w'.table
  gone : ∀ q, Leftover lorasRoot w.tree q → ¬ refused q → w'.tree.node? q = none
  kept : ∀ q, ¬ Leftover lorasRoot w.tree q ∨ refused q → w'.tree.node? q = w.tree.node? q

/-- Under the fetcher's directory, only files and directories are named like a download. -/
def PlainTmp (lorasRoot : Path) (t : FileTree α) : Prop :=
  ∀ base, t.locate (civitaiDir lorasRoot) = some base → ∀ q ∈ tmpEntries t base,
    t.isFile q = true ∨ t.isDirAt q = true

section Rows

variable {lorasRoot : Path} {refused : Path → Prop} {w₀ w w' : World α} {t t' : Table}
  {id errorCode errorMessage : String} {handover : Bool} {now : Nat}

theorem recovers_refl (lorasRoot : Path) (refused : Path → Prop) (w : World α) :
    Recovers lorasRoot refused w w :=
  ⟨List.forall₂_same.mpr fun _ _ => .inl rfl, FileTree.shrinks_refl _,
    fun _ h => absurd rfl h⟩

theorem Handed.id_eq {r r' : LoraFetch} (h : Handed r r') : r'.id = r.id := by
  obtain ⟨now, rfl⟩ := h
  rfl

theorem Handed.not_active {r r' : LoraFetch} (h : Handed r r') : ¬ r'.Active := by
  obtain ⟨now, rfl⟩ := h
  exact fun hact => hact.2 rfl

theorem Recovers.ids (h : Recovers lorasRoot refused w₀ w) :
    w.table.map (·.id) = w₀.table.map (·.id) := by
  have hrows := h.rows
  generalize w₀.table = rows, w.table = rows' at hrows
  induction hrows with
  | nil => rfl
  | cons hr _ ih =>
    rw [List.map_cons, List.map_cons, ih]
    rcases hr with rfl | ⟨-, hhanded⟩
    · rfl
    · rw [hhanded.id_eq]

theorem getById_of_mem (hkeyed : (t.map (·.id)).Nodup) {r : LoraFetch} (hr : r ∈ t) :
    t.getById r.id = some r := by
  rcases hfind : t.getById r.id with _ | r'
  · have hne := List.find?_eq_none.mp hfind r hr
    simp at hne
  · obtain ⟨hr', hid⟩ := mem_of_find hfind
    rw [List.inj_on_of_nodup_map hkeyed hr' hr hid]

theorem failed_allowed {s : FetchStatus} (h : s.Active) :
    FetchStatus.failed ∈ allowedTransitions s := by
  cases s with
  | done => exact absurd rfl h.1
  | failed => exact absurd rfl h.2
  | _ => decide

theorem setFailed_ok (h : t.setFailed id errorCode errorMessage handover now = .ok t') :
    ∃ r ∈ t, r.id = id ∧ r.Active ∧ t' = t.update id fun r => { r with
      status := .failed, errorCode := some errorCode, errorMessage := some errorMessage,
      handover := handover, updatedAt := now } := by
  unfold Table.setFailed Table.transition at h
  split at h
  · cases h
  · rename_i r hr
    obtain ⟨hmem, hid⟩ := mem_of_find hr
    split at h
    · rename_i hallowed
      cases h
      exact ⟨r, hmem, hid, active_of_allowed hallowed, rfl⟩
    · cases h

/-- One row is handed over. -/
theorem Recovers.handOver (h : Recovers lorasRoot refused w₀ w)
    (hkeyed : (w.table.map (·.id)).Nodup)
    (hset : w.table.setFailed id "service_restarted" "fetcher interrupted by service restart" true
      now = .ok t') :
    Recovers lorasRoot refused w₀ { w with table := t' } ∧
      ∀ r, r ∈ t' ∧ r.Active ↔ (r ∈ w.table ∧ r.Active) ∧ r.id ≠ id := by
  obtain ⟨r, hr, rfl, hact, rfl⟩ := setFailed_ok hset
  have hsame : ∀ r' ∈ w.table, r'.id = r.id → r' = r := fun r' hr' hid =>
    List.inj_on_of_nodup_map hkeyed hr' hr hid
  refine ⟨⟨?_, h.tree, h.files⟩, fun r' => ⟨fun ⟨hr', hact'⟩ => ?_, fun ⟨⟨hr', hact'⟩, hid⟩ => ?_⟩⟩
  · refine List.forall₂_map_right_iff.mpr (List.forall₂_iff_zip.mpr ⟨h.rows.length_eq, ?_⟩)
    intro a b hab
    split
    · rename_i hid
      rw [hsame b (List.of_mem_zip hab).2 hid]
      rcases List.forall₂_zip h.rows hab with rfl | ⟨-, hhanded⟩
      · rw [hsame b (List.of_mem_zip hab).2 hid]
        exact .inr ⟨hact, now, rfl⟩
      · rw [hsame b (List.of_mem_zip hab).2 hid] at hhanded
        exact absurd hact hhanded.not_active
    · exact List.forall₂_zip h.rows hab
  · obtain ⟨r₁, hr₁, rfl⟩ := mem_update hr'
    split at hact'
    · exact absurd rfl hact'.2
    · rename_i hid
      rw [if_neg hid]
      exact ⟨⟨hr₁, hact'⟩, hid⟩
  · exact ⟨List.mem_map.mpr ⟨r', hr', if_neg hid⟩, hact'⟩

theorem mem_scan (t : Table) (r : LoraFetch) : r ∈ t.scanNonTerminal ↔ r ∈ t ∧ r.Active := by
  unfold Table.scanNonTerminal
  rw [List.mem_mergeSort, List.mem_filter, decide_eq_true_eq]

theorem length_scan (t : Table) : t.scanNonTerminal.length = t.countP fun r => r.Active := by
  unfold Table.scanNonTerminal
  rw [List.length_mergeSort, List.countP_eq_length_filter]

/-- The end of a stage: no exception but one from outside. -/
def FromOutside {β : Type} (r : Except Exc β) : Prop := ∀ e, r = .error e → ∃ m, e = .other m

theorem fromOutside_ok {β : Type} (b : β) : FromOutside (.ok b) := by
  intro e he
  cases he

theorem fromOutside_other {β : Type} (message : String) :
    FromOutside (.error (.other message) : Except Exc β) := by
  intro e he
  cases he
  exact ⟨message, rfl⟩

/-- The rows that are to come are the active ones. -/
theorem holds_failAll (rows : List LoraFetch) (h : Recovers lorasRoot refused w₀ w)
    (hkeyed : (w₀.table.map (·.id)).Nodup) (hids : (rows.map (·.id)).Nodup)
    (hrows : ∀ r, r ∈ rows ↔ r ∈ w.table ∧ r.Active) :
    (failAll rows).Holds (Step refused) (Recovers lorasRoot refused w₀) (fun res w' =>
      Recovers lorasRoot refused w₀ w' ∧ w'.tree = w.tree ∧ FromOutside res ∧
        (res = .ok () → ∀ r ∈ w'.table, ¬ r.Active)) w := by
  induction rows generalizing w with
  | nil =>
    refine ⟨h, rfl, fromOutside_ok _, fun _ r hr hact => ?_⟩
    exact absurd ((hrows r).mpr ⟨hr, hact⟩) List.not_mem_nil
  | cons row rows ih =>
    unfold failAll
    refine Co.holds_bind (Co.holds_call _ _ fun res w' hstep => ?_)
    have hkeyed' : (w.table.map (·.id)).Nodup := h.ids ▸ hkeyed
    obtain ⟨hmem, hact⟩ := (hrows row).mp List.mem_cons_self
    cases hstep with
    | setFailed hset =>
      obtain ⟨hnext, hactive⟩ := h.handOver hkeyed' hset
      refine ⟨hnext, ih hnext (List.nodup_cons.mp hids).2 fun r => ?_⟩
      rw [hactive, ← hrows]
      constructor
      · intro hr
        refine ⟨List.mem_cons_of_mem _ hr, fun hid => (List.nodup_cons.mp hids).1 ?_⟩
        exact List.mem_map.mpr ⟨r, hr, hid⟩
      · rintro ⟨hr, hid⟩
        rcases List.mem_cons.mp hr with rfl | hr
        · exact absurd rfl hid
        · exact hr
    | setFailedRaises message hset =>
      obtain ⟨hnext, -⟩ := h.handOver hkeyed' hset
      exact ⟨hnext, hnext, rfl, fromOutside_other message, fun hok => by cases hok⟩
    | setFailedRefused hset =>
      -- an active row can fail
      have hallowed : FetchStatus.failed ∈ allowedTransitions row.status := failed_allowed hact
      unfold Table.setFailed at hset
      rw [transition_allowed (getById_of_mem hkeyed' hmem) hallowed] at hset
      cases hset
    | fault _ message hop =>
      exact ⟨h, h, rfl, fromOutside_other message, fun hok => by cases hok⟩

end Rows

section Files

variable {lorasRoot : Path} {refused : Path → Prop} {w₀ w w' : World α} {t u : FileTree α}
  {base q : Path}

theorem mem_tmpEntries : q ∈ tmpEntries t base ↔ q ∈ t.entries.map (·.1) ∧ base <+: q ∧ base ≠ q ∧
    q.getLast?.any isTmpName = true := by
  simp [tmpEntries, List.mem_filter]

theorem node_of_mem (hq : q ∈ t.entries.map (·.1)) : t.node? q ≠ none := by
  obtain ⟨⟨p, node⟩, he, rfl⟩ := List.mem_map.mp hq
  by_cases hroot : p = []
  · subst hroot
    simp [FileTree.node?, nodeAt]
  · rw [(FileTree.node?_eq_some hroot).mpr he]
    simp

theorem mem_of_node (hroot : q ≠ []) (hq : t.node? q ≠ none) : q ∈ t.entries.map (·.1) := by
  obtain ⟨node, hnode⟩ := Option.ne_none_iff_exists'.mp hq
  exact List.mem_map.mpr ⟨_, (FileTree.node?_eq_some hroot).mp hnode, rfl⟩

/-- The entry below a directory, and the directory that it is in. -/
theorem split_tmp (hq : q ∈ tmpEntries t base) : ∃ above name, q = base ++ (above ++ [name]) ∧
    t.isDirAt (base ++ above) = true ∧ t.isDirAt base = true := by
  obtain ⟨hmem, ⟨rest, rfl⟩, hne, -⟩ := mem_tmpEntries.mp hq
  have hrest : rest ≠ [] := fun hnil => hne (by rw [hnil, List.append_nil])
  have hthere := node_of_mem hmem
  have hin : t.node? (base ++ rest.dropLast ++ [rest.getLast hrest]) ≠ none := by
    rwa [List.append_assoc, List.dropLast_concat_getLast]
  refine ⟨rest.dropLast, rest.getLast hrest, by rw [List.dropLast_concat_getLast], ?_, ?_⟩
  · exact t.isDirAt_of_append (by simp) hin
  · exact t.isDirAt_of_append hrest hthere

/-- The path that the walk gives for an entry leads to the entry, also when files are gone. -/
theorem entry_listed (h : FileTree.Shrinks t u) {dir : Path} (hloc : t.locate dir = some base)
    (hq : q ∈ tmpEntries t base) : u.entry (dir ++ q.drop base.length) = some q := by
  obtain ⟨above, name, rfl, habove, -⟩ := split_tmp hq
  rw [List.drop_left]
  exact h.entry_under hloc habove name

theorem length_erase (hdir : t.isDirAt q = false) (hq : t.node? q ≠ none) :
    t.entries.length = (t.erase q hdir).entries.length + 1 := by
  have hroot : q ≠ [] := by
    rintro rfl
    simp [FileTree.isDirAt, FileTree.node?, nodeAt, Node.isDir] at hdir
  have hone : (t.entries.map (·.1)).count q = 1 :=
    List.count_eq_one_of_mem t.nodup (mem_of_node hroot hq)
  rw [List.count, List.countP_map] at hone
  rw [List.length_eq_countP_add_countP (p := (· == q) ∘ fun e : Path × Node α => e.1), hone,
    Nat.add_comm]
  simp [FileTree.erase, List.countP_eq_length_filter]

/-- One file is removed. -/
theorem Recovers.removeOne (h : Recovers lorasRoot refused w₀ w)
    (hplain : PlainTmp lorasRoot w₀.tree)
    (hloc : w₀.tree.locate (civitaiDir lorasRoot) = some base) (hq : q ∈ tmpEntries w₀.tree base)
    {p : Path} (hentry : w.tree.entry p = some q) (hunlink : w.tree.unlink p = some u)
    (hfree : ¬ refused q) :
    Recovers lorasRoot refused w₀ { w with tree := u } ∧ (∀ x, u.node? x = if x = q then none else
      w.tree.node? x) ∧ w.tree.entries.length = u.entries.length + 1 := by
  obtain ⟨e, he, hrest⟩ := Option.bind_eq_some_iff.mp hunlink
  rw [hentry, Option.some.injEq] at he
  subst he
  split at hrest
  on_goal 2 => cases hrest
  rename_i hdir
  split at hrest
  on_goal 2 => cases hrest
  rename_i hsome
  cases hrest
  have hfile : w₀.tree.isFile q = true := by
    rcases hplain base hloc q hq with hfile | hisDir
    · exact hfile
    · rw [h.tree.isDirAt hisDir] at hdir
      cases hdir
  have hnode := w.tree.node?_erase q hdir
  refine ⟨⟨h.rows, h.tree.unlink hentry hfile hunlink, fun x hx => ?_⟩, hnode, ?_⟩
  · by_cases hxq : x = q
    · exact hxq ▸ ⟨⟨base, hloc, hq, hfile⟩, hfree⟩
    · rw [hnode, if_neg hxq] at hx
      exact h.files x hx
  · exact length_erase hdir (Option.isSome_iff_ne_none.mp hsome)

/-- What the loop over the files does to the world, with `n` files removed. -/
structure Unlinked (lorasRoot : Path) (refused : Path → Prop) (w₀ w w' : World α) (n : Nat) :
    Prop where
  recovers : Recovers lorasRoot refused w₀ w'
  table : w'.table = w.table
  fewer : ∀ x, w.tree.node? x = none → w'.tree.node? x = none
  count : w.tree.entries.length = w'.tree.entries.length + n

theorem unlinked_refl (h : Recovers lorasRoot refused w₀ w) :
    Unlinked lorasRoot refused w₀ w w 0 :=
  ⟨h, rfl, fun _ hx => hx, rfl⟩

theorem Unlinked.trans {w'' : World α} {n m : Nat} (h : Unlinked lorasRoot refused w₀ w w' n)
    (h' : Unlinked lorasRoot refused w₀ w' w'' m) :
    Unlinked lorasRoot refused w₀ w w'' (n + m) where
  recovers := h'.recovers
  table := h'.table.trans h.table
  fewer x hx := h'.fewer x (h.fewer x hx)
  count := by
    have hn := h.count
    have hm := h'.count
    omega

theorem holds_unlinkOne (h : Recovers lorasRoot refused w₀ w) (hplain : PlainTmp lorasRoot w₀.tree)
    (hloc : w₀.tree.locate (civitaiDir lorasRoot) = some base) (hq : q ∈ tmpEntries w₀.tree base) :
    (unlinkOne (civitaiDir lorasRoot ++ q.drop base.length)).Holds (Step refused)
      (Recovers lorasRoot refused w₀) (fun res w' => ∃ n, res = .ok n ∧
        Unlinked lorasRoot refused w₀ w w' n ∧
        (Leftover lorasRoot w₀.tree q → ¬ refused q → w'.tree.node? q = none)) w := by
  have hentry : w.tree.entry (civitaiDir lorasRoot ++ q.drop base.length) = some q :=
    entry_listed h.tree hloc hq
  unfold unlinkOne
  refine Co.holds_tryCatch (Co.holds_bind (Co.holds_call _ _ fun res w' hstep => ?_))
  cases hstep with
  | unlink hunlink hfree =>
    obtain ⟨hnext, hnode, hcount⟩ := h.removeOne hplain hloc hq hentry hunlink (hfree q hentry)
    refine ⟨hnext, 1, rfl, ⟨hnext, rfl, fun x hx => ?_, hcount⟩, fun _ _ => ?_⟩
    · rw [hnode]
      split
      · rfl
      · exact hx
    · rw [hnode, if_pos rfl]
  | unlinkFails message hfails =>
    refine ⟨h, 0, rfl, unlinked_refl h, fun ⟨_, _, _, hfile⟩ hfree => ?_⟩
    by_contra hthere
    rcases hfails with hnone | ⟨e, he, hrefused⟩
    · obtain ⟨v, hv⟩ := h.tree.unlink_some hentry hfile hthere
      rw [hnone] at hv
      cases hv
    · rw [hentry, Option.some.injEq] at he
      exact hfree (he ▸ hrefused)
  | fault _ _ hop => exact absurd rfl (hop _)

theorem holds_unlinkAll {qs : List Path} (h : Recovers lorasRoot refused w₀ w)
    (hplain : PlainTmp lorasRoot w₀.tree)
    (hloc : w₀.tree.locate (civitaiDir lorasRoot) = some base)
    (hqs : ∀ q ∈ qs, q ∈ tmpEntries w₀.tree base) :
    (unlinkAll (qs.map fun q => civitaiDir lorasRoot ++ q.drop base.length)).Holds (Step refused)
      (Recovers lorasRoot refused w₀) (fun res w' => ∃ n, res = .ok n ∧
        Unlinked lorasRoot refused w₀ w w' n ∧
        ∀ q ∈ qs, Leftover lorasRoot w₀.tree q → ¬ refused q → w'.tree.node? q = none) w := by
  induction qs generalizing w with
  | nil => exact ⟨0, rfl, unlinked_refl h, fun q hq => absurd hq List.not_mem_nil⟩
  | cons q qs ih =>
    rw [List.map_cons]
    unfold unlinkAll
    refine Co.holds_bind ((holds_unlinkOne h hplain hloc (hqs q List.mem_cons_self)).mono ?_)
    rintro _ w₁ ⟨n, rfl, hone, hgone⟩
    have hrest := ih hone.recovers fun q' hq' => hqs q' (List.mem_cons_of_mem _ hq')
    refine Co.holds_bind (hrest.mono ?_)
    rintro _ w₂ ⟨m, rfl, hmore, hothers⟩
    refine ⟨n + m, rfl, hone.trans hmore, fun q' hq' hleft hfree => ?_⟩
    rcases List.mem_cons.mp hq' with rfl | hq'
    · exact hmore.fewer q' (hgone hleft hfree)
    · exact hothers q' hq' hleft hfree

/-- The directory is there for as long as there is something in it. -/
theorem isDir_of_leftover (h : FileTree.Shrinks t u) (hq : Leftover lorasRoot t q) :
    u.isDir (civitaiDir lorasRoot) = true := by
  obtain ⟨base, hloc, hmem, -⟩ := hq
  obtain ⟨-, -, -, -, hdir⟩ := split_tmp hmem
  rw [FileTree.isDir, FileTree.stat, h.locate_down hloc hdir, Option.bind_some]
  exact h.isDirAt hdir

theorem holds_cleanTmp (h : Recovers lorasRoot refused w₀ w) (hplain : PlainTmp lorasRoot w₀.tree) :
    (cleanTmp (civitaiDir lorasRoot)).Holds (Step refused) (Recovers lorasRoot refused w₀)
      (fun res w' => FromOutside res ∧ Recovers lorasRoot refused w₀ w' ∧ ∀ n, res = .ok n →
        Unlinked lorasRoot refused w₀ w w' n ∧
        ∀ q, Leftover lorasRoot w₀.tree q → ¬ refused q → w'.tree.node? q = none) w := by
  have houtside : ∀ message, ∀ n, (.error (.other message) : Except Exc Nat) = .ok n →
      Unlinked lorasRoot refused w₀ w w n ∧
      ∀ q, Leftover lorasRoot w₀.tree q → ¬ refused q → w.tree.node? q = none := by
    intro _ _ heq
    cases heq
  unfold cleanTmp
  refine Co.holds_bind (Co.holds_call _ _ fun res w' hstep => ?_)
  cases hstep with
  | fault _ message _ => exact ⟨h, fromOutside_other message, h, houtside message⟩
  | isDir =>
    refine ⟨h, ?_⟩
    by_cases hdir : w.tree.isDir (civitaiDir lorasRoot) = true
    on_goal 2 =>
      simp only [hdir]
      refine ⟨fromOutside_ok _, h, fun n hn => ?_⟩
      cases hn
      refine ⟨unlinked_refl h, fun q hq => absurd (isDir_of_leftover h.tree hq) hdir⟩
    simp only [hdir, if_true]
    refine Co.holds_bind (Co.holds_call _ _ fun res w' hstep => ?_)
    cases hstep with
    | fault _ message _ => exact ⟨h, fromOutside_other message, h, houtside message⟩
    | rglobTmp =>
      obtain ⟨node, hstat⟩ : ∃ node, w.tree.stat (civitaiDir lorasRoot) = some node := by
        rw [FileTree.isDir] at hdir
        rcases hstat : w.tree.stat (civitaiDir lorasRoot) with _ | node
        · rw [hstat] at hdir
          cases hdir
        · exact ⟨node, rfl⟩
      obtain ⟨base, hbase, hnode'⟩ := Option.bind_eq_some_iff.mp hstat
      have hthere : w.tree.node? base ≠ none := by simp [hnode']
      have hloc : w₀.tree.locate (civitaiDir lorasRoot) = some base :=
        FileTree.walk_enough (h.tree.walk_up hbase hthere)
      have hglob : rglobTmp w.tree (civitaiDir lorasRoot) =
          (tmpEntries w.tree base).map fun q => civitaiDir lorasRoot ++ q.drop base.length := by
        simp only [rglobTmp, hbase]
      rw [hglob]
      refine ⟨h, (holds_unlinkAll h hplain hloc fun q hq => ?_).mono ?_⟩
      · obtain ⟨hmem, hbelow⟩ := mem_tmpEntries.mp hq
        exact mem_tmpEntries.mpr ⟨(h.tree.sublist.map _).subset hmem, hbelow⟩
      rintro _ w' ⟨n, rfl, hunlinked, hgone⟩
      refine ⟨fromOutside_ok _, hunlinked.recovers, fun m hm => ?_⟩
      cases hm
      refine ⟨hunlinked, fun q hq hfree => ?_⟩
      by_cases hq' : w.tree.node? q = none
      · exact hunlinked.fewer q hq'
      refine hgone q ?_ hq hfree
      obtain ⟨base', hloc', hmem, -⟩ := hq
      rw [hloc, Option.some.injEq] at hloc'
      subst hloc'
      obtain ⟨-, hbelow, hne, hname⟩ := mem_tmpEntries.mp hmem
      refine mem_tmpEntries.mpr ⟨mem_of_node ?_ hq', hbelow, hne, hname⟩
      rintro rfl
      cases hname

end Files

/-! ## Boot after boot -/

section Boots

variable {lorasRoot : Path} {refused : Path → Prop} {w₀ w w' w'' : World α}

/-- The whole recovery, in a world that others may have left half done. -/
theorem holds_recoverFetches (h : Recovers lorasRoot refused w₀ w)
    (hkeyed : (w₀.table.map (·.id)).Nodup) (hplain : PlainTmp lorasRoot w₀.tree) :
    (recoverFetches lorasRoot).Holds (Step refused) (Recovers lorasRoot refused w₀)
      (fun res w' => FromOutside res ∧ Recovers lorasRoot refused w₀ w' ∧ ∀ stats, res = .ok stats →
        stats.rowsHandedOver = w.table.countP (fun r => r.Active) ∧
        w.tree.entries.length = w'.tree.entries.length + stats.tmpFilesCleaned ∧
        (∀ r ∈ w'.table, ¬ r.Active) ∧
        ∀ q, Leftover lorasRoot w₀.tree q → ¬ refused q → w'.tree.node? q = none) w := by
  have houtside : ∀ (message : String) (w' : World α), Recovers lorasRoot refused w₀ w' →
      ∀ P : FetchRecoveryStats → Prop,
        FromOutside (.error (.other message) : Except Exc FetchRecoveryStats) ∧
        Recovers lorasRoot refused w₀ w' ∧ ∀ stats,
          (.error (.other message) : Except Exc FetchRecoveryStats) = .ok stats → P stats :=
    fun message w' hw' P => ⟨fromOutside_other message, hw', fun _ heq => by cases heq⟩
  unfold recoverFetches
  refine Co.holds_bind (Co.holds_call _ _ fun res w' hstep => ?_)
  cases hstep with
  | fault _ message _ => exact ⟨h, houtside message w h _⟩
  | scanNonTerminal =>
    have hids : (w.table.scanNonTerminal.map (·.id)).Nodup := by
      have hkeyed' : (w.table.map (·.id)).Nodup := h.ids ▸ hkeyed
      unfold Table.scanNonTerminal
      rw [((List.mergeSort_perm _ _).map _).nodup_iff]
      exact hkeyed'.sublist (List.filter_sublist.map _)
    have hfail := holds_failAll w.table.scanNonTerminal h hkeyed hids (mem_scan w.table)
    refine ⟨h, Co.holds_bind (hfail.mono ?_)⟩
    rintro (e | u) w₁ ⟨hnext, htree, hfrom, hover⟩
    · obtain ⟨message, rfl⟩ := hfrom e rfl
      exact houtside message w₁ hnext _
    refine Co.holds_bind ((holds_cleanTmp hnext hplain).mono ?_)
    rintro (e | n) w₂ ⟨hfrom₂, hlast, hcleaned⟩
    · obtain ⟨message, rfl⟩ := hfrom₂ e rfl
      exact houtside message w₂ hlast _
    obtain ⟨hunlinked, hgone⟩ := hcleaned n rfl
    refine ⟨fromOutside_ok _, hlast, fun stats hstats => ?_⟩
    cases hstats
    refine ⟨length_scan w.table, ?_, ?_, hgone⟩
    · rw [← htree]
      exact hunlinked.count
    · rw [hunlinked.table]
      exact hover rfl

/-- `w'` is what a series of services left that were all cut off in their recovery. -/
inductive Boots (lorasRoot : Path) (refused : Path → Prop) (w : World α) : World α → Prop
  | first : Boots lorasRoot refused w w
  | again {w' w'' : World α} (h : Boots lorasRoot refused w w')
      (hstops : (recoverFetches lorasRoot).Stops (Step refused) w' w'') :
      Boots lorasRoot refused w w''

theorem Boots.recovers (h : Boots lorasRoot refused w w') (hkeyed : (w.table.map (·.id)).Nodup)
    (hplain : PlainTmp lorasRoot w.tree) : Recovers lorasRoot refused w w' := by
  induction h with
  | first => exact recovers_refl lorasRoot refused w
  | again _ hstops ih =>
    rcases Co.stops_of_holds (holds_recoverFetches ih hkeyed hplain) hstops with rfl | hnext
    · exact ih
    · exact hnext

/-- With no active row left and no file that can go, the recovery is whole. -/
theorem Recovers.whole (h : Recovers lorasRoot refused w w') (hover : ∀ r ∈ w'.table, ¬ r.Active)
    (hgone : ∀ q, Leftover lorasRoot w.tree q → ¬ refused q → w'.tree.node? q = none) :
    Recovered lorasRoot refused w w' where
  rows := by
    refine List.forall₂_iff_zip.mpr ⟨h.rows.length_eq, fun {r r'} hrr => ?_⟩
    rcases List.forall₂_zip h.rows hrr with rfl | ⟨hact, hhanded⟩
    · exact ⟨fun hact => absurd hact (hover _ (List.of_mem_zip hrr).2), fun _ => rfl⟩
    · exact ⟨fun _ => hhanded, fun hnot => absurd hact hnot⟩
  gone := hgone
  kept q hq := by
    by_contra hne
    obtain ⟨hleft, hfree⟩ := h.files q hne
    rcases hq with hq | hq
    · exact hq hleft
    · exact hfree hq

/-- A download under its final name, and its sidecar, are not named like a partial one. -/
theorem not_leftover (lorasRoot : Path) (t : FileTree α) (dir : Path) (slug : String)
    (version : Int) {suffix : String} (hsuffix : suffix = ".safetensors" ∨ suffix = ".json") :
    ¬ Leftover lorasRoot t (dir ++ [stem slug version ++ suffix]) := by
  rintro ⟨base, -, hmem, -⟩
  obtain ⟨-, -, -, hname⟩ := mem_tmpEntries.mp hmem
  rw [List.getLast?_concat, Option.any_some, isTmpName, decide_eq_true_eq,
    String.toList_append] at hname
  have hends := suffix_unique tmpSuffix (by decide) suffix
  rcases List.suffix_or_suffix_of_suffix hname (List.suffix_append _ suffix.toList) with hin | hin
  · rcases hsuffix with rfl | rfl <;> exact absurd hin (by decide)
  · rcases hsuffix with rfl | rfl <;> exact absurd hin (by decide)

theorem createPending_ok {t : Table} (hover : ∀ r ∈ t, ¬ r.Active) {id : String}
    (hfresh : ∀ r ∈ t, r.id ≠ id) (url : String) (modelId : Option Int) (version : Int)
    (now : Nat) :
    t.createPending id url modelId version now = .ok (Table.newRow id url modelId version now,
      t ++ [Table.newRow id url modelId version now]) := by
  have hany : (t.any fun r => r.id = id ∨ (r.civitaiVersionId = version ∧ r.Active)) = false := by
    rw [List.any_eq_false]
    intro r hr
    simp [hfresh r hr, hover r hr]
  rw [Table.createPending, hany]
  rfl

/-- However many recoveries were cut off before it, the one that comes to its end has handed
over every row and removed every partial file that the system lets go, once each over all of
them, and nothing else. No download under its final name is lost in any of them, and no
version is blocked any more. -/
theorem recovery_resumes (hkeyed : (w.table.map (·.id)).Nodup) (hplain : PlainTmp lorasRoot w.tree)
    (hboots : Boots lorasRoot refused w w') {res : Except Exc FetchRecoveryStats}
    (hend : (recoverFetches lorasRoot).EndsIn (Step refused) w' res w'') :
    (∀ e, res = .error e → ∃ message, e = .other message) ∧
    Recovers lorasRoot refused w w'' ∧
    (∀ dir slug version suffix, suffix = ".safetensors" ∨ suffix = ".json" →
      w''.tree.node? (dir ++ [stem slug version ++ suffix]) =
        w.tree.node? (dir ++ [stem slug version ++ suffix])) ∧
    ∀ stats, res = .ok stats →
      Recovered lorasRoot refused w w'' ∧
      stats.rowsHandedOver = w'.table.countP (fun r => r.Active) ∧
      w'.tree.entries.length = w''.tree.entries.length + stats.tmpFilesCleaned ∧
      ∀ id url modelId version now, (∀ r ∈ w''.table, r.id ≠ id) →
        w''.table.createPending id url modelId version now =
          .ok (Table.newRow id url modelId version now,
            w''.table ++ [Table.newRow id url modelId version now]) := by
  have hsofar := hboots.recovers hkeyed hplain
  obtain ⟨hfrom, hrecovers, hwhole⟩ :=
    Co.end_of_holds (holds_recoverFetches hsofar hkeyed hplain) hend
  refine ⟨hfrom, hrecovers, fun dir slug version suffix hsuffix => ?_, fun stats hstats => ?_⟩
  · by_contra hne
    exact not_leftover lorasRoot w.tree dir slug version hsuffix (hrecovers.files _ hne).1
  · obtain ⟨hrows, hfiles, hover, hgone⟩ := hwhole stats hstats
    exact ⟨hrecovers.whole hover hgone, hrows, hfiles,
      fun _ url modelId version now hfresh => createPending_ok hover hfresh url modelId version now⟩

end Boots

/-- A download that stopped half way, beside one that is there. -/
def halfWay : World Nat where
  table := [{ Table.newRow "F1" "https://civitai.com/models/1" (some 1) 7 40 with
    status := .downloading, progressBytes := 120, totalBytes := some 500 }]
  tree := {
    entries := [
      (["loras"], .dir),
      (["loras", "civitai"], .dir),
      (["loras", "civitai", "a_7.safetensors.tmp"], .file 120),
      (["loras", "civitai", "b_8.safetensors"], .file 500)]
    nodup := by decide
    components := by decide
    parents := by decide }

/-- The next service hands the row over and is killed. -/
def killed : World Nat where
  table := [{ Table.newRow "F1" "https://civitai.com/models/1" (some 1) 7 40 with
    status := .failed, progressBytes := 120, totalBytes := some 500, handover := true,
    errorCode := some "service_restarted"
    errorMessage := some "fetcher interrupted by service restart"
    updatedAt := 60 }]
  tree := halfWay.tree

/-- The one after it has the file left to remove. -/
theorem half_way_is_recovered : ∃ w'',
    (recoverFetches ["loras"]).EndsIn (Step fun _ => False) killed (.ok ⟨0, 1⟩) w'' ∧
      Recovered ["loras"] (fun _ => False) halfWay w'' := by
  have hset : halfWay.table.setFailed "F1" "service_restarted"
      "fetcher interrupted by service restart" true 60 = .ok killed.table := by
    decide +kernel
  have hscan : halfWay.table.scanNonTerminal = halfWay.table := by decide +kernel
  have hfail : (failAll halfWay.table.scanNonTerminal).EndsIn (Step fun _ => False) halfWay
      (.ok ()) killed := by
    rw [hscan]
    exact Co.endsIn_bind (Co.endsIn_call (.setFailed hset)) (Co.endsIn_pure _ _)
  have hboots : Boots ["loras"] (fun _ => False) halfWay killed :=
    .again .first (Co.stops_bind (Co.endsIn_call (.scanNonTerminal _))
      (Co.stops_bind hfail (Co.stops_here _ _)))
  have hplain : PlainTmp ["loras"] halfWay.tree := by
    intro base hloc
    have hbase : halfWay.tree.locate (civitaiDir ["loras"]) = some ["loras", "civitai"] := by
      decide +kernel
    rw [hbase, Option.some.injEq] at hloc
    subst hloc
    decide +kernel
  have hend : ∃ w'', (recoverFetches ["loras"]).EndsIn (Step fun _ => False) killed
      (.ok ⟨0, 1⟩) w'' := by
    have hnone : killed.table.scanNonTerminal = [] := by decide +kernel
    have hthere : killed.tree.isDir (civitaiDir ["loras"]) = true := by decide +kernel
    have hglob : rglobTmp killed.tree (civitaiDir ["loras"]) =
        [["loras", "civitai", "a_7.safetensors.tmp"]] := by decide +kernel
    obtain ⟨u, hu⟩ : ∃ u, killed.tree.unlink ["loras", "civitai", "a_7.safetensors.tmp"] =
        some u := Option.isSome_iff_exists.mp (by decide +kernel)
    have hone : (unlinkAll [["loras", "civitai", "a_7.safetensors.tmp"]]).EndsIn
        (Step fun _ => False) killed (.ok 1) { killed with tree := u } :=
      Co.endsIn_bind (Co.endsIn_tryCatch (Co.endsIn_bind (Co.endsIn_call
        (.unlink hu fun _ _ h => h)) (Co.endsIn_pure _ _)))
        (Co.endsIn_bind (Co.endsIn_pure _ _) (Co.endsIn_pure _ _))
    have hclean : (cleanTmp (civitaiDir ["loras"])).EndsIn (Step fun _ => False) killed
        (.ok 1) { killed with tree := u } := by
      refine Co.endsIn_bind (Co.endsIn_call (.isDir _ _)) ?_
      rw [hthere]
      refine Co.endsIn_bind (Co.endsIn_call (.rglobTmp _ _)) ?_
      rw [hglob]
      exact hone
    refine ⟨{ killed with tree := u }, Co.endsIn_bind (Co.endsIn_call (.scanNonTerminal _)) ?_⟩
    rw [hnone]
    exact Co.endsIn_bind (Co.endsIn_pure _ _) (Co.endsIn_bind hclean (Co.endsIn_pure _ _))
  obtain ⟨w'', hend⟩ := hend
  exact ⟨w'', hend, ((recovery_resumes (by decide) hplain hboots hend).2.2.2 _ rfl).1⟩

end image_gen.fetch_recovery

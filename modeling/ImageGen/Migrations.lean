-- The migration runner (`apply_migrations`). A script runs in autocommit mode
-- and its row in schema_version is written in a transaction of its own, so an
-- interruption can leave any prefix of a script without the row.
import Mathlib.Data.List.Sort
import Mathlib.Logic.Relation
import ImageGen.WriteBlocks

namespace image_gen.migrations

open image_gen.write_blocks Relation

variable {σ ε : Type}

/-! ## The runner -/

structure Migration (σ ε : Type) where
  name : String
  script : List (Statement σ ε)

/-- The schema that the scripts work on, and the rows of schema_version. -/
structure Db (σ : Type) where
  schema : σ
  versions : List String

inductive Failure (ε : Type)
  | badFilename (name : String)
  | duplicatePrefixes (prefixes : List Nat)
  | database (e : ε)
  /-- The name stands in schema_version already. -/
  | integrity

def bodyChar (c : Char) : Bool := c.isLower || c.isDigit || c = '_' || c = '-'

/-- The pattern of a migration's file name. -/
def matchesFilename (name : String) : Bool :=
  match name.toList with
  | a :: b :: c :: '_' :: rest =>
    let body := rest.take (rest.length - 4)
    a.isDigit && b.isDigit && c.isDigit && rest.drop (rest.length - 4) = ".sql".toList &&
      !body.isEmpty && body.all bodyChar
  | _ => false

/-- `int(f.name[:3])`. -/
def prefixOf (name : String) : Nat :=
  (name.toList.take 3).foldl (fun n c => 10 * n + (c.toNat - '0'.toNat)) 0

def sortFiles (dir : List (Migration σ ε)) : List (Migration σ ε) :=
  dir.insertionSort fun a b => a.name ≤ b.name

def checkFiles (files : List (Migration σ ε)) : Except (Failure ε) Unit :=
  match files.find? fun m => !matchesFilename m.name with
  | some m => .error (.badFilename m.name)
  | none =>
    let prefixes := files.map fun m => prefixOf m.name
    if prefixes.Nodup then .ok () else .error (.duplicatePrefixes prefixes)

/-- A statement of a script, committed at once. -/
def autocommit (f : Statement σ ε) : Statement (Db σ) (Failure ε) := fun db =>
  match f db.schema with
  | .ok schema => .ok { db with schema := schema }
  | .error e => .error (.database e)

/-- The INSERT and its commit. -/
def record (name : String) : Statement (Db σ) (Failure ε) := fun db =>
  if name ∈ db.versions then .error .integrity
  else .ok { db with versions := db.versions ++ [name] }

/-- What a migration writes, one durable change after the other. -/
def Migration.steps (m : Migration σ ε) : List (Statement (Db σ) (Failure ε)) :=
  m.script.map autocommit ++ [record m.name]

def pending (files : List (Migration σ ε)) (db : Db σ) : List (Migration σ ε) :=
  files.filter fun m => m.name ∉ db.versions

/-- The durable changes that a call on the database sets out to make. -/
def callSteps (dir : List (Migration σ ε)) (db : Db σ) : List (Statement (Db σ) (Failure ε)) :=
  match checkFiles (sortFiles dir) with
  | .ok () => (pending (sortFiles dir) db).flatMap Migration.steps
  | .error _ => []

/-- A call that runs through, with the names that it applied. -/
def applyMigrations (dir : List (Migration σ ε)) (db : Db σ) :
    Except (Failure ε) (Db σ × List String) :=
  match checkFiles (sortFiles dir) with
  | .error e => .error e
  | .ok () =>
    match runAll (callSteps dir db) db with
    | .ok db' => .ok (db', (pending (sortFiles dir) db).map (·.name))
    | .error e => .error e

/-- A call that a crash or an error ends after some of its changes. The rollback
of the error branch takes none of them back. -/
def Interrupted (dir : List (Migration σ ε)) (db db' : Db σ) : Prop :=
  ∃ n, runAll ((callSteps dir db).take n) db = .ok db'

/-! ## The law -/

def scripts (files : List (Migration σ ε)) : List (Statement σ ε) := files.flatMap (·.script)

/-- After any interruptions a call goes through, and the result is that of one
clean run of every script, each with its row. -/
def Recovers (dir : List (Migration σ ε)) (fresh : σ) : Prop :=
  ∀ db, ReflTransGen (Interrupted dir) ⟨fresh, []⟩ db →
    ∃ db' names, applyMigrations dir db = .ok (db', names) ∧
      runAll (scripts (sortFiles dir)) fresh = .ok db'.schema ∧
      db'.versions = (sortFiles dir).map (·.name)

/-- What interrupted runs of one script make of a schema. -/
def Attempted (script : List (Statement σ ε)) : σ → σ → Prop :=
  ReflTransGen fun s s' => ∃ n, runAll (script.take n) s = .ok s'

/-- Every script, run after interrupted runs of itself, goes through and gives
what it gives when it runs once. -/
def RerunnableFrom : σ → List (Migration σ ε) → Prop
  | _, [] => True
  | s, m :: rest => ∃ s', (∀ t, Attempted m.script s t → runAll m.script t = .ok s') ∧
      RerunnableFrom s' rest

/-! ## Runs of a script -/

theorem runAll_autocommit (script : List (Statement σ ε)) (db : Db σ) :
    runAll (script.map autocommit) db =
      match runAll script db.schema with
      | .ok schema => .ok { db with schema := schema }
      | .error e => .error (.database e) := by
  induction script generalizing db with
  | nil => rfl
  | cons f rest ih =>
    simp only [List.map_cons, runAll, autocommit]
    rcases f db.schema with e | schema
    · rfl
    · exact ih _

theorem runAll_autocommit_ok {script : List (Statement σ ε)} {db db' : Db σ}
    (h : runAll (script.map autocommit) db = .ok db') :
    runAll script db.schema = .ok db'.schema ∧ db'.versions = db.versions := by
  rw [runAll_autocommit] at h
  split at h
  · rename_i schema hrun
    cases h
    exact ⟨hrun, rfl⟩
  · cases h

theorem runAll_append_ok {δ ε : Type} {fs gs : List (Statement δ ε)} {d d' : δ} :
    runAll (fs ++ gs) d = .ok d' ↔ ∃ m, runAll fs d = .ok m ∧ runAll gs m = .ok d' := by
  rw [runAll_append]
  rcases runAll fs d with e | m <;> simp

/-- A migration that goes through runs its script and adds its row. -/
theorem runAll_steps_ok {m : Migration σ ε} {db db' : Db σ} :
    runAll m.steps db = .ok db' ↔ runAll m.script db.schema = .ok db'.schema ∧
      m.name ∉ db.versions ∧ db'.versions = db.versions ++ [m.name] := by
  unfold Migration.steps
  rw [runAll_append_ok]
  constructor
  · intro h
    obtain ⟨mid, hscript, hrecord⟩ := h
    obtain ⟨hrun, hversions⟩ := runAll_autocommit_ok hscript
    simp only [runAll, record] at hrecord
    split at hrecord
    · rename_i d hd
      split at hd <;> cases hd
      rename_i hnew
      cases hrecord
      exact ⟨hrun, hversions ▸ hnew, by rw [hversions]⟩
    · cases hrecord
  · intro h
    obtain ⟨hrun, hnew, hversions⟩ := h
    refine ⟨⟨db'.schema, db.versions⟩, ?_, ?_⟩
    · rw [runAll_autocommit, hrun]
    · simp only [runAll, record]
      rw [if_neg hnew, ← hversions]

/-! ## Interrupted calls -/

/-- A schema on which the first of the migrations was attempted. -/
def Facing (s t : σ) : List (Migration σ ε) → Prop
  | [] => t = s
  | m :: _ => Attempted m.script s t

theorem facing_refl (s : σ) (rest : List (Migration σ ε)) : Facing s s rest := by
  cases rest with
  | nil => rfl
  | cons m rest => exact .refl

/-- The database after interruptions: some migrations are through, the next one
was attempted. -/
def Within (fresh : σ) (files : List (Migration σ ε)) (db : Db σ) : Prop :=
  ∃ through rest s, files = through ++ rest ∧ runAll (scripts through) fresh = .ok s ∧
    db.versions = through.map (·.name) ∧ Facing s db.schema rest

theorem scripts_append (files rest : List (Migration σ ε)) :
    scripts (files ++ rest) = scripts files ++ scripts rest := List.flatMap_append

theorem scripts_concat (files : List (Migration σ ε)) (m : Migration σ ε) :
    scripts (files ++ [m]) = scripts files ++ m.script := by
  simp [scripts]

theorem runAll_scripts_concat {through : List (Migration σ ε)} {m : Migration σ ε}
    {fresh s s' : σ} (hs : runAll (scripts through) fresh = .ok s)
    (hm : runAll m.script s = .ok s') : runAll (scripts (through ++ [m])) fresh = .ok s' := by
  rw [scripts_concat, runAll_append_ok]
  exact ⟨s, hs, hm⟩

/-- What is left to do when the first migrations are through. -/
theorem pending_of_through {through rest : List (Migration σ ε)} (db : Db σ)
    (hnodup : ((through ++ rest).map (·.name)).Nodup)
    (hversions : db.versions = through.map (·.name)) : pending (through ++ rest) db = rest := by
  unfold pending
  rw [hversions, List.filter_append]
  have hthrough : through.filter (fun m => m.name ∉ through.map (·.name)) = [] := by
    apply List.filter_eq_nil_iff.mpr
    intro m hm
    simpa using ⟨m, hm, rfl⟩
  have hrest : rest.filter (fun m => m.name ∉ through.map (·.name)) = rest := by
    apply List.filter_eq_self.mpr
    intro m hm
    rw [List.map_append, List.nodup_append] at hnodup
    have hne := hnodup.2.2
    simp only [decide_eq_true_eq]
    exact fun hmem => hne _ hmem _ (List.mem_map_of_mem hm) rfl
  rw [hthrough, hrest, List.nil_append]

theorem rerunnable_split {s fresh : σ} {through rest : List (Migration σ ε)}
    (h : RerunnableFrom fresh (through ++ rest)) (hs : runAll (scripts through) fresh = .ok s) :
    RerunnableFrom s rest := by
  induction through generalizing fresh with
  | nil =>
    cases hs
    exact h
  | cons m through ih =>
    obtain ⟨s', hm, hrest⟩ := h
    have hsplit : scripts (m :: through) = m.script ++ scripts through := rfl
    rw [hsplit, runAll_append_ok] at hs
    obtain ⟨mid, hmid, hs⟩ := hs
    rw [hm fresh .refl, Except.ok.injEq] at hmid
    exact ih hrest (hmid ▸ hs)

/-- A prefix of the steps of the migrations that are left. -/
theorem within_take {fresh s : σ} {through rest : List (Migration σ ε)} {db db' : Db σ}
    (hre : RerunnableFrom s rest) (hs : runAll (scripts through) fresh = .ok s)
    (hversions : db.versions = through.map (·.name)) (hdb : Facing s db.schema rest)
    {n : Nat} (hrun : runAll ((rest.flatMap Migration.steps).take n) db = .ok db') :
    Within fresh (through ++ rest) db' := by
  induction rest generalizing through s db n with
  | nil =>
    simp only [List.flatMap_nil, List.take_nil] at hrun
    cases hrun
    exact ⟨through, [], s, rfl, hs, hversions, hdb⟩
  | cons m rest ih =>
    obtain ⟨s', hm, hre'⟩ := hre
    rw [List.flatMap_cons, List.take_append] at hrun
    by_cases hn : n ≤ m.script.length
    · -- the cut falls into the script of `m`, so its row is not written
      have hcut : m.steps.take n = (m.script.take n).map autocommit := by
        rw [Migration.steps, List.take_append_of_le_length (by simpa using hn), List.map_take]
      have hlater : n - m.steps.length = 0 := by simp [Migration.steps]; omega
      rw [hcut, hlater, List.take_zero, List.append_nil] at hrun
      obtain ⟨hscript, hsame⟩ := runAll_autocommit_ok hrun
      exact ⟨through, m :: rest, s, rfl, hs, hsame.trans hversions, hdb.tail ⟨n, hscript⟩⟩
    · have hall : m.steps.take n = m.steps := by
        apply List.take_of_length_le
        simp [Migration.steps]
        omega
      rw [hall, runAll_append_ok] at hrun
      obtain ⟨mid, hmid, hrun⟩ := hrun
      obtain ⟨hscript, -, hrow⟩ := runAll_steps_ok.mp hmid
      have hschema : mid.schema = s' := by
        rw [hm _ hdb, Except.ok.injEq] at hscript
        exact hscript.symm
      have hthrough := runAll_scripts_concat hs (hm s .refl)
      have hmidVersions : mid.versions = (through ++ [m]).map (·.name) := by
        rw [hrow, hversions, List.map_append]
        rfl
      have hnext : Facing s' mid.schema rest := hschema ▸ facing_refl s' rest
      rw [List.append_cons]
      exact ih hre' hthrough hmidVersions hnext hrun

theorem checkFiles_ok_iff {files : List (Migration σ ε)} :
    checkFiles files = .ok () ↔
      (∀ m ∈ files, matchesFilename m.name = true) ∧
        (files.map fun m => prefixOf m.name).Nodup := by
  unfold checkFiles
  rcases hbad : files.find? (fun m => !matchesFilename m.name) with _ | m <;> rw [hbad]
  · have hall : ∀ m ∈ files, matchesFilename m.name = true := by simpa using hbad
    by_cases hnodup : (files.map fun m => prefixOf m.name).Nodup
    · simpa [hnodup] using hall
    · simp [hnodup]
  · have hm := List.mem_of_find?_eq_some hbad
    have hname : matchesFilename m.name = false := by simpa using List.find?_some hbad
    simp only [reduceCtorEq, false_iff, not_and]
    intro hall
    rw [hall m hm] at hname
    cases hname

/-- The names of files that pass the check are distinct. -/
theorem names_nodup {files : List (Migration σ ε)} (h : checkFiles files = .ok ()) :
    (files.map (·.name)).Nodup := by
  apply List.Nodup.of_map prefixOf
  rw [List.map_map]
  exact (checkFiles_ok_iff.mp h).2

theorem checkFiles_take {files : List (Migration σ ε)} (h : checkFiles files = .ok ()) (k : Nat) :
    checkFiles (files.take k) = .ok () := by
  obtain ⟨hall, hnodup⟩ := checkFiles_ok_iff.mp h
  apply checkFiles_ok_iff.mpr
  constructor
  · exact fun m hm => hall m (List.mem_of_mem_take hm)
  · exact hnodup.sublist ((List.take_sublist k files).map _)

theorem callSteps_of_check {dir : List (Migration σ ε)} (h : checkFiles (sortFiles dir) = .ok ())
    (db : Db σ) : callSteps dir db = (pending (sortFiles dir) db).flatMap Migration.steps := by
  rw [callSteps, h]

theorem within_reachable {dir : List (Migration σ ε)} {fresh : σ} {db : Db σ}
    (hfiles : checkFiles (sortFiles dir) = .ok ()) (hre : RerunnableFrom fresh (sortFiles dir))
    (h : ReflTransGen (Interrupted dir) ⟨fresh, []⟩ db) : Within fresh (sortFiles dir) db := by
  induction h with
  | refl => exact ⟨[], sortFiles dir, fresh, rfl, rfl, rfl, facing_refl _ _⟩
  | tail _ hstep ih =>
    obtain ⟨through, rest, s, hsplit, hs, hversions, hfacing⟩ := ih
    obtain ⟨n, hrun⟩ := hstep
    have hnodup := names_nodup hfiles
    rw [callSteps_of_check hfiles, hsplit,
      pending_of_through _ (hsplit ▸ hnodup) hversions] at hrun
    rw [hsplit] at hre ⊢
    exact within_take (rerunnable_split hre hs) hs hversions hfacing hrun

/-- A clean run of migrations that have no rows yet. -/
theorem runAll_clean {files : List (Migration σ ε)} (db : Db σ) {s : σ}
    (hnodup : (db.versions ++ files.map (·.name)).Nodup)
    (hs : runAll (scripts files) db.schema = .ok s) :
    runAll (files.flatMap Migration.steps) db = .ok ⟨s, db.versions ++ files.map (·.name)⟩ := by
  induction files generalizing db with
  | nil =>
    cases hs
    simp [runAll]
  | cons m rest ih =>
    have hsplit : scripts (m :: rest) = m.script ++ scripts rest := rfl
    rw [hsplit, runAll_append_ok] at hs
    obtain ⟨mid, hmid, hrest⟩ := hs
    rw [List.map_cons, List.append_cons] at hnodup ⊢
    have hnew : m.name ∉ db.versions := by
      intro hmem
      have hpair := (List.nodup_append.mp hnodup).1
      exact (List.nodup_append.mp hpair).2.2 _ hmem _ List.mem_cons_self rfl
    rw [List.flatMap_cons, runAll_append_ok]
    exact ⟨⟨mid, db.versions ++ [m.name]⟩, runAll_steps_ok.mpr ⟨hmid, hnew, rfl⟩, ih _ hnodup hrest⟩

/-- The scripts that are left go through, whether the first one was attempted or
not. -/
theorem scripts_of_facing {s t : σ} {rest : List (Migration σ ε)} (hre : RerunnableFrom s rest)
    (hfacing : Facing s t rest) :
    ∃ s', runAll (scripts rest) s = .ok s' ∧ runAll (scripts rest) t = .ok s' := by
  induction rest generalizing s t with
  | nil =>
    have ht : t = s := hfacing
    exact ⟨s, rfl, by rw [ht]; rfl⟩
  | cons m rest ih =>
    obtain ⟨s', hm, hre'⟩ := hre
    obtain ⟨last, hlast, -⟩ := ih hre' (facing_refl s' rest)
    have hsplit : scripts (m :: rest) = m.script ++ scripts rest := rfl
    rw [hsplit]
    exact ⟨last, runAll_append_ok.mpr ⟨s', hm s .refl, hlast⟩,
      runAll_append_ok.mpr ⟨s', hm t hfacing, hlast⟩⟩

theorem recovers_of_rerunnable {dir : List (Migration σ ε)} {fresh : σ}
    (hfiles : checkFiles (sortFiles dir) = .ok ()) (hre : RerunnableFrom fresh (sortFiles dir)) :
    Recovers dir fresh := by
  intro db hdb
  obtain ⟨through, rest, s, hsplit, hs, hversions, hfacing⟩ := within_reachable hfiles hre hdb
  have hnodup := names_nodup hfiles
  have hcall : callSteps dir db = rest.flatMap Migration.steps := by
    rw [callSteps_of_check hfiles, hsplit, pending_of_through db (hsplit ▸ hnodup) hversions]
  rw [hsplit] at hnodup hre ⊢
  obtain ⟨last, hclean, hrest⟩ := scripts_of_facing (rerunnable_split hre hs) hfacing
  have hrun := runAll_clean db (by rwa [hversions, ← List.map_append]) hrest
  refine ⟨⟨last, db.versions ++ rest.map (·.name)⟩, (pending (sortFiles dir) db).map (·.name),
    ?_, ?_, ?_⟩
  · simp [applyMigrations, hfiles, hcall, hrun]
  · rw [scripts_append, runAll_append_ok]
    exact ⟨s, hs, hclean⟩
  · rw [hversions, List.map_append]

/-! ## The condition is necessary -/

theorem RerunnableFrom.take {s : σ} {files : List (Migration σ ε)} (h : RerunnableFrom s files)
    (k : Nat) : RerunnableFrom s (files.take k) := by
  induction files generalizing s k with
  | nil => simpa using h
  | cons m rest ih =>
    cases k with
    | zero => trivial
    | succ k =>
      obtain ⟨s', hm, hrest⟩ := h
      exact ⟨s', hm, ih hrest k⟩

theorem sortFiles_take (dir : List (Migration σ ε)) (k : Nat) :
    sortFiles ((sortFiles dir).take k) = (sortFiles dir).take k := by
  have hsorted : (sortFiles dir).Pairwise fun a b => a.name ≤ b.name := by
    unfold sortFiles
    have htotal : Std.Total fun a b : Migration σ ε => a.name ≤ b.name :=
      ⟨fun a b => String.le_total a.name b.name⟩
    have htrans : IsTrans (Migration σ ε) fun a b => a.name ≤ b.name :=
      ⟨fun a b c => String.le_trans⟩
    exact List.pairwise_insertionSort _ dir
  exact (hsorted.sublist (List.take_sublist k _)).insertionSort_eq

/-- Interrupted calls reach every attempt of a migration whose predecessors are
through. -/
theorem reachable_attempt {through : List (Migration σ ε)} {m : Migration σ ε} {fresh s t : σ}
    (hsort : sortFiles (through ++ [m]) = through ++ [m])
    (hfiles : checkFiles (through ++ [m]) = .ok ())
    (hs : runAll (scripts through) fresh = .ok s) (ht : Attempted m.script s t) :
    ReflTransGen (Interrupted (through ++ [m])) ⟨fresh, []⟩ ⟨t, through.map (·.name)⟩ := by
  have hcheck : checkFiles (sortFiles (through ++ [m])) = .ok () := by rw [hsort, hfiles]
  have hnodup := names_nodup hfiles
  induction ht with
  | refl =>
    -- one call that is cut after the rows of the predecessors
    apply ReflTransGen.single
    refine ⟨(through.flatMap Migration.steps).length, ?_⟩
    have hpending : pending (through ++ [m]) (⟨fresh, []⟩ : Db σ) = through ++ [m] := by
      simp [pending]
    have hthrough : (([] : List String) ++ through.map (·.name)).Nodup := by
      rw [List.map_append] at hnodup
      exact (List.nodup_append.mp hnodup).1
    rw [callSteps_of_check hcheck, hsort, hpending, List.flatMap_append, List.take_left]
    exact runAll_clean ⟨fresh, []⟩ hthrough hs
  | @tail u v _ hstep ih =>
    -- one more call, cut inside the script of `m`
    obtain ⟨n, hrun⟩ := hstep
    refine ih.tail ⟨min n m.script.length, ?_⟩
    have hpending := pending_of_through ⟨u, through.map (·.name)⟩ hnodup rfl
    have htake : (m.steps).take (min n m.script.length) = (m.script.take n).map autocommit := by
      rw [Migration.steps, List.take_append_of_le_length (by simp), ← List.map_take,
        ← List.take_eq_take_min]
    rw [callSteps_of_check hcheck, hsort, hpending]
    rw [List.flatMap_cons, List.flatMap_nil, List.append_nil, htake, runAll_autocommit, hrun]

theorem rerunnable_of_recovers {dir : List (Migration σ ε)} {fresh last : σ}
    (hfiles : checkFiles (sortFiles dir) = .ok ())
    (hvalid : runAll (scripts (sortFiles dir)) fresh = .ok last)
    (hrec : ∀ k, Recovers ((sortFiles dir).take k) fresh) :
    RerunnableFrom fresh (sortFiles dir) := by
  have hgen : ∀ (rest through : List (Migration σ ε)) (s : σ), sortFiles dir = through ++ rest →
      runAll (scripts through) fresh = .ok s → RerunnableFrom s rest := by
    intro rest
    induction rest with
    | nil => exact fun _ _ _ _ => trivial
    | cons m rest ih =>
      intro through s hsplit hs
      have hone : (sortFiles dir).take (through.length + 1) = through ++ [m] := by
        rw [hsplit, List.append_cons, ← List.length_singleton (a := m), ← List.length_append,
          List.take_left]
      have hsort : sortFiles (through ++ [m]) = through ++ [m] := by
        rw [← hone]
        exact sortFiles_take dir _
      have hcheck : checkFiles (through ++ [m]) = .ok () := by
        rw [← hone]
        exact checkFiles_take hfiles _
      rw [hsplit, List.append_cons, scripts_append, runAll_append_ok] at hvalid
      obtain ⟨s', hs', -⟩ := hvalid
      refine ⟨s', fun t ht => ?_, ih _ s' (by rw [hsplit, List.append_cons]) hs'⟩
      -- the service that knows the migrations up to `m` only recovers from this attempt
      have hreach := reachable_attempt hsort hcheck hs ht
      have hrecm := hrec (through.length + 1)
      rw [hone] at hrecm
      obtain ⟨db', names, hcall, hschema, -⟩ := hrecm _ hreach
      have hpending := pending_of_through ⟨t, through.map (·.name)⟩ (names_nodup hcheck) rfl
      rw [applyMigrations, callSteps_of_check (by rw [hsort, hcheck]), hsort, hcheck, hpending,
        List.flatMap_cons, List.flatMap_nil, List.append_nil] at hcall
      rcases hrun : runAll m.steps (⟨t, through.map (·.name)⟩ : Db σ) with e | d <;>
        simp only [hrun] at hcall
      · cases hcall
      · cases hcall
        rw [hsort] at hschema
        rw [hs', Except.ok.injEq] at hschema
        rw [hschema]
        exact (runAll_steps_ok.mp hrun).1
  exact hgen _ [] fresh rfl rfl

/-- A list of valid migrations recovers from every history of interruptions, at
every stage of its growth, exactly when each script can be run again after
interrupted runs of itself. -/
theorem recovers_iff_rerunnable {dir : List (Migration σ ε)} {fresh last : σ}
    (hfiles : checkFiles (sortFiles dir) = .ok ())
    (hvalid : runAll (scripts (sortFiles dir)) fresh = .ok last) :
    (Recovers dir fresh ∧ ∀ k, Recovers ((sortFiles dir).take k) fresh) ↔
      RerunnableFrom fresh (sortFiles dir) := by
  constructor
  · exact fun h => rerunnable_of_recovers hfiles hvalid h.2
  · intro hre
    refine ⟨recovers_of_rerunnable hfiles hre, fun k => ?_⟩
    apply recovers_of_rerunnable
    · rw [sortFiles_take]
      exact checkFiles_take hfiles k
    · rw [sortFiles_take]
      exact hre.take k

/-! ## The migrations of the service -/

structure Schema where
  tables : List (String × List String)
  indexes : List String
  deriving DecidableEq

inductive SqliteError
  | duplicateColumn (name : String)
  | noSuchTable (name : String)

abbrev Ddl := Statement Schema SqliteError

/-- `CREATE TABLE IF NOT EXISTS`. -/
def createTable (name : String) (columns : List String) : Ddl := fun s =>
  if (s.tables.lookup name).isSome then .ok s
  else .ok { s with tables := s.tables ++ [(name, columns)] }

/-- `CREATE INDEX IF NOT EXISTS`. -/
def createIndex (name table : String) : Ddl := fun s =>
  if name ∈ s.indexes then .ok s
  else if (s.tables.lookup table).isSome then .ok { s with indexes := s.indexes ++ [name] }
  else .error (.noSuchTable table)

def addColumn (table column : String) : Ddl := fun s =>
  match s.tables.lookup table with
  | none => .error (.noSuchTable table)
  | some columns =>
    if column ∈ columns then .error (.duplicateColumn column)
    else .ok { s with tables := s.tables.map fun t =>
      if t.1 = table then (t.1, t.2 ++ [column]) else t }

def initSql : Migration Schema SqliteError where
  name := "001_init.sql"
  script := [
    createTable "schema_version" ["filename", "applied_at"],
    createTable "jobs" ["id", "model_name", "input_json", "mode", "status", "result_json",
      "error_code", "error_message", "created_at", "updated_at", "client_id", "prompt_id",
      "output_keys", "response_delivered", "initial_response_delivered", "webhook_url",
      "webhook_headers_json", "webhook_delivery_status", "webhook_handover"],
    createIndex "idx_jobs_status_updated" "jobs",
    createIndex "idx_jobs_created_at" "jobs"]

def fetchedAtSql : Migration Schema SqliteError where
  name := "002_fetched_at.sql"
  script := [addColumn "jobs" "fetched_at", createIndex "idx_jobs_completed_unfetched" "jobs"]

/-- The runner has created schema_version. -/
def freshSchema : Schema := ⟨[("schema_version", ["filename", "applied_at"])], []⟩

/-- A crash after the ALTER TABLE of the second migration. -/
def afterAlter : Db Schema where
  schema :=
    match runAll (initSql.script ++ fetchedAtSql.script.take 1) freshSchema with
    | .ok s => s
    | .error _ => freshSchema
  versions := ["001_init.sql"]

/-- The scripts are valid, and after one crash the runner fails with a duplicate
column at every later boot. -/
theorem a_crash_after_alter_table_is_final :
    (∃ s, runAll (scripts (sortFiles [initSql, fetchedAtSql])) freshSchema = .ok s) ∧
      checkFiles (sortFiles [initSql, fetchedAtSql]) = .ok () ∧
      Interrupted [initSql, fetchedAtSql] ⟨freshSchema, []⟩ afterAlter ∧
      applyMigrations [initSql, fetchedAtSql] afterAlter =
        .error (.database (.duplicateColumn "fetched_at")) ∧
      ¬ Recovers [initSql, fetchedAtSql] freshSchema := by
  have hcrash : Interrupted [initSql, fetchedAtSql] ⟨freshSchema, []⟩ afterAlter := ⟨6, rfl⟩
  have hfails : applyMigrations [initSql, fetchedAtSql] afterAlter =
      .error (.database (.duplicateColumn "fetched_at")) := by rfl
  refine ⟨⟨_, rfl⟩, rfl, hcrash, hfails, fun hrec => ?_⟩
  obtain ⟨db', names, hok, -⟩ := hrec afterAlter (.single hcrash)
  rw [hfails] at hok
  cases hok

/-! ## Scripts that can run again -/

/-- The schemas that a script passes. -/
def prefixes (script : List Ddl) (s : Schema) : List Schema :=
  (List.range (script.length + 1)).filterMap fun n => (runAll (script.take n) s).toOption

/-- A script that is cut off anywhere leads from one of its schemas to another. -/
def Repeatable (script : List Ddl) (s : Schema) : Prop :=
  ∀ t ∈ prefixes script s, ∀ n ∈ List.range (script.length + 1),
    ∃ t' ∈ prefixes script s, (runAll (script.take n) t).toOption = some t'

instance (script : List Ddl) (s : Schema) : Decidable (Repeatable script s) := by
  unfold Repeatable
  infer_instance

theorem attempted_of_repeatable {script : List Ddl} {s t : Schema} (h : Repeatable script s)
    (ht : Attempted script s t) : t ∈ prefixes script s := by
  induction ht with
  | refl => exact List.mem_filterMap.mpr ⟨0, by simp, rfl⟩
  | tail _ hstep ih =>
    obtain ⟨n, hrun⟩ := hstep
    have hcut : script.take n = script.take (min n script.length) := by
      rw [← List.take_take, List.take_length]
    obtain ⟨t', ht', hrun'⟩ :=
      h _ ih (min n script.length) (List.mem_range.mpr (by omega))
    rw [← hcut, hrun] at hrun'
    obtain rfl := Option.some.inj hrun'
    exact ht'

def tagsSql : Migration Schema SqliteError where
  name := "002_tags.sql"
  script := [createTable "tags" ["id", "job_id"], createIndex "idx_tags_job" "tags"]

def afterInit : Schema :=
  ((runAll initSql.script freshSchema).toOption).getD freshSchema

def afterTags : Schema := ((runAll tagsSql.script afterInit).toOption).getD afterInit

theorem rerunnable_of_repeatable {script : List Ddl} {s s' : Schema} (h : Repeatable script s)
    (hall : ∀ t ∈ prefixes script s, (runAll script t).toOption = some s') :
    ∀ t, Attempted script s t → runAll script t = .ok s' := by
  intro t ht
  have hrun := hall t (attempted_of_repeatable h ht)
  rcases hresult : runAll script t with e | t' <;> rw [hresult] at hrun
  · cases hrun
  · rw [Option.some.inj hrun]

/-- Two scripts that only create what is missing survive interruptions. -/
theorem two_scripts_recover : Recovers [tagsSql, initSql] freshSchema := by
  have hre : RerunnableFrom freshSchema (sortFiles [tagsSql, initSql]) :=
    ⟨afterInit, rerunnable_of_repeatable (by decide +kernel) (by decide +kernel),
      afterTags, rerunnable_of_repeatable (by decide +kernel) (by decide +kernel), trivial⟩
  have hvalid : runAll (scripts (sortFiles [tagsSql, initSql])) freshSchema = .ok afterTags := by
    rfl
  exact ((recovers_iff_rerunnable rfl hvalid).mpr hre).1

end image_gen.migrations

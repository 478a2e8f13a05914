-- A fetch from its request to `done`, on a file tree that others write to as
-- well: the file it leaves is the one that a request for its name resolves to,
-- and the one that the list gives under that name.
import ImageGen.FetchDedupe
import ImageGen.FetchNames
import Mathlib.Algebra.GroupWithZero.Nat

namespace image_gen.fetched_loras

open image_gen.coroutine image_gen.json image_gen.job_store image_gen.file_tree
  image_gen.lora_files image_gen.fetch_table image_gen.civitai_fetch image_gen.fetch_names
  image_gen.lora_scan
open image_gen.eviction (pathWithSuffix sidecarPath)

/-! ## The operations on the tree -/

/-- The bytes of a name in UTF-8. -/
def byteLength (name : String) : Nat := (name.toList.map Char.utf8Size).sum

/-- `ENAMETOOLONG`. -/
def TooLong (p : Path) : Prop := ∃ name ∈ p.getLast?, 255 < byteLength name

instance (p : Path) : Decidable (TooLong p) :=
  decidable_of_iff (∃ name ∈ p.getLast?.toList, 255 < byteLength name) (by simp [TooLong])

structure World where
  tree : LoraTree
  table : Table
  /-- How many operations there were. -/
  clock : Nat
  /-- What the download has put into the temporary file. -/
  saved : Option Contents

/-- What one operation meets. -/
structure Input where
  now : Nat
  /-- It raises this and does nothing. -/
  fault : Option Exc
  /-- What the others have done to the tree since the operation before. -/
  others : LoraTree → LoraTree
  /-- A download raises at once, or it writes a file and then gives the digest
  or raises. -/
  stream : Except Exc (Contents × Except Exc String)
  written : Nat
  fetchedAt : String
  sidecarSize : Nat
  answer : (op : Op) → Except Exc op.Ans

def strings : Json → List Json
  | .arr words => words.filter fun
    | .str _ => true
    | _ => false
  | _ => []

/-- The text that `_write_sidecar_atomic` writes. -/
def sidecarContents (inp : Input) (s : Sidecar) : Contents where
  size := inp.sidecarSize
  text := .value (.obj
    [("name", .str s.canonicalName), ("filename", .str (s.canonicalName ++ ".safetensors")),
      ("sha256", .str s.sha256), ("source", .str "civitai"),
      ("civitai_model_id", (s.civitaiModelId.map Json.int).getD .null),
      ("civitai_version_id", .int s.civitaiVersionId),
      ("base_model_hint", match Json.get s.metadata "baseModel" with
        | .str hint => .str hint
        | _ => .null),
      ("trigger_words", .arr (strings (Json.get s.metadata "trainedWords"))),
      ("fetched_at", .str inp.fetchedAt), ("last_used", .null)])

/-- `mkdir` of the directory, and a new file in it. -/
def createFile (t : LoraTree) (p : Path) (contents : Contents) : Option LoraTree :=
  (t.mkdirs p.dropLast).bind fun u => if TooLong p then none else u.write p contents

def osError : Exc := .os "" false

/-- An operation on the tree that raises `OSError` or leaves a new tree. -/
def treeWrite (r : Option LoraTree) (w : World) : Except Exc Unit × World :=
  match r with
  | some u => (.ok (), { w with tree := u })
  | none => (.error osError, w)

def effect (inp : Input) : (op : Op) → World → Except Exc op.Ans × World
  | .mkdir p, w => treeWrite (w.tree.mkdirs p) w
  | .isFile p, w => (if TooLong p then .error osError else .ok (w.tree.isFile p), w)
  | .writeSidecar p s, w =>
    let tmp := pathWithSuffix p ".json.tmp"
    match createFile w.tree tmp (sidecarContents inp s) with
    | none => (.error osError, w)
    | some u => treeWrite (u.rename tmp p) { w with tree := u }
  | .streamDownload id _ tmp _, w =>
    match inp.stream with
    | .error e => (.error e, w)
    | .ok (contents, result) =>
      match createFile w.tree tmp contents with
      | none => (.error osError, w)
      | some u => (result, { w with
          tree := u
          table := w.table.setProgress id inp.written inp.now
          saved := some contents })
  | .unlinkQuiet p, w => (.ok (), { w with tree := (w.tree.unlink p).getD w.tree })
  | .replace src dst, w => treeWrite (w.tree.rename src dst) w
  | op, w =>
    let r := fetch_dedupe.execFetch ⟨inp.now, none, inp.written, inp.answer⟩ op w.table
    (r.1, { w with table := r.2 })

/-- What an operation finds: the others have been at the tree. -/
def met (env : Nat → Input) (w : World) : World :=
  { w with tree := (env w.clock).others w.tree, clock := w.clock + 1 }

def exec (env : Nat → Input) (op : Op) (w : World) : Except Exc op.Ans × World :=
  match (env w.clock).fault with
  | some e => (.error e, met env w)
  | none => effect (env w.clock) op (met env w)

theorem exec_ok {env : Nat → Input} {op : Op} {w : World} {a : op.Ans}
    (h : (exec env op w).1 = .ok a) : exec env op w = effect (env w.clock) op (met env w) := by
  unfold exec at h ⊢
  rcases hfault : (env w.clock).fault with _ | e
  · rfl
  · rw [hfault] at h
    cases h

/-! ## Trees without links -/

/-- On the way to `civitai`, or one of the files of the version in it. -/
def Near (root : Path) (version : Int) (p : Path) : Prop :=
  p <+: civitaiDir root ∨ ∃ slug, ∃ x ∈ suffixes, p = filePath root slug version x

structure Tidy (root : Path) (version : Int) (t : LoraTree) : Prop where
  component : ∀ name ∈ root, name ≠ ".."
  noLink : ∀ p, Near root version p → ∀ absolute target, t.node? p ≠ some (.link absolute target)

section Tree

variable {root : Path} {version : Int} {t u : LoraTree}

theorem dropLast_civitai (name : String) :
    (civitaiDir root ++ [name]).dropLast = civitaiDir root := by
  simp

theorem near_file (slug : String) {x : String} (hx : x ∈ suffixes) :
    Near root version (civitaiDir root ++ [stem slug version ++ x]) :=
  Or.inr ⟨slug, x, hx, rfl⟩

theorem Tidy.unlinked (h : Tidy root version t) : t.Unlinked (civitaiDir root) where
  component := by
    intro name hname
    rcases List.mem_append.mp hname with hname | hname
    · exact h.component name hname
    · rw [List.mem_singleton.mp hname]
      decide
  noLink q hq := h.noLink q (Or.inl hq)

theorem Tidy.plain (h : Tidy root version t) (hdir : t.isDirAt (civitaiDir root) = true)
    {slug x : String} (hx : x ∈ suffixes) (hname : Component (stem slug version ++ x)) :
    t.Plain (civitaiDir root) (stem slug version ++ x) :=
  ⟨hdir, hname.2.2.1, h.noLink _ (near_file slug hx)⟩

theorem Tidy.grows (h : Tidy root version t) {p : Path} (hg : t.Grows u p) : Tidy root version u :=
  ⟨h.component, fun q hq => hg.noLink (h.noLink q hq)⟩

/-- Entries that are replaced by files leave no link. -/
theorem Tidy.of_nodes (h : Tidy root version t)
    (hnodes : ∀ q, (∀ absolute target, t.node? q ≠ some (.link absolute target)) →
      ∀ absolute target, u.node? q ≠ some (.link absolute target)) : Tidy root version u :=
  ⟨h.component, fun q hq => hnodes q (h.noLink q hq)⟩

theorem isDirAt_congr {p : Path} (h : u.node? p = t.node? p) : u.isDirAt p = t.isDirAt p := by
  unfold FileTree.isDirAt
  rw [h]

theorem civitai_ne_file (name : String) : civitaiDir root ≠ civitaiDir root ++ [name] := by
  intro h
  have := congrArg List.length h
  simp at this

/-- `mkdir` leaves what is in the directory alone. -/
theorem mkdirs_files (h : Tidy root version t) (hmake : t.mkdirs (civitaiDir root) = some u) :
    Tidy root version u ∧ u.isDirAt (civitaiDir root) = true ∧
      ∀ name, u.node? (civitaiDir root ++ [name]) = t.node? (civitaiDir root ++ [name]) := by
  obtain ⟨hgrows, hdir⟩ := FileTree.mkdirs_spec h.unlinked hmake
  refine ⟨h.grows hgrows, hdir, fun name => ?_⟩
  by_cases hnone : t.node? (civitaiDir root ++ [name]) = none
  · rw [hnone]
    rcases hgrows.added _ hnone with hu | ⟨-, hpre⟩
    · exact hu
    · have hlength := hpre.length_le
      rw [List.length_append, List.length_singleton] at hlength
      omega
  · exact hgrows.kept _ hnone

theorem createFile_spec (h : Tidy root version t) {slug x : String} (hx : x ∈ suffixes)
    (hname : Component (stem slug version ++ x)) {contents : Contents}
    (hcreate : createFile t (filePath root slug version x) contents = some u) :
    Tidy root version u ∧ u.isDirAt (civitaiDir root) = true ∧
      (∀ other, u.node? (civitaiDir root ++ [other]) =
        if other = stem slug version ++ x then some (.file contents)
        else t.node? (civitaiDir root ++ [other])) ∧
      ¬ TooLong (filePath root slug version x) := by
  unfold createFile filePath at hcreate
  rw [dropLast_civitai] at hcreate
  obtain ⟨v, hmake, hwrite⟩ := Option.bind_eq_some_iff.mp hcreate
  obtain ⟨htidy, hdir, hfiles⟩ := mkdirs_files h hmake
  split at hwrite
  · cases hwrite
  rename_i hshort
  have hnodes := (htidy.plain hdir hx hname).write hwrite
  refine ⟨htidy.of_nodes ?_, ?_, ?_, hshort⟩
  · intro q hq absolute target
    rw [hnodes]
    split
    · exact nofun
    · exact hq absolute target
  · rw [isDirAt_congr (t := v)]
    · exact hdir
    · rw [hnodes, if_neg (civitai_ne_file _)]
  · intro other
    rw [hnodes, ← hfiles other]
    simp

theorem rename_files (h : Tidy root version t) (hdir : t.isDirAt (civitaiDir root) = true)
    {slug x name' : String} (hx : x ∈ suffixes)
    (hrename : t.rename (filePath root slug version x) (civitaiDir root ++ [name']) = some u) :
    Tidy root version u ∧ u.isDirAt (civitaiDir root) = true ∧
      ∃ node, t.node? (filePath root slug version x) = some node ∧
        ∀ other, u.node? (civitaiDir root ++ [other]) =
          if other = name' then some node
          else if other = stem slug version ++ x then none
          else t.node? (civitaiDir root ++ [other]) := by
  obtain ⟨node, hnode, hnodes⟩ := FileTree.rename_spec hdir hrename
  refine ⟨h.of_nodes ?_, ?_, node, hnode, ?_⟩
  · intro q hq absolute target
    rw [hnodes]
    split
    · rw [← hnode]
      exact h.noLink _ (near_file slug hx) absolute target
    · split
      · exact nofun
      · exact hq absolute target
  · rw [isDirAt_congr (t := t)]
    · exact hdir
    · rw [hnodes, if_neg (civitai_ne_file name'), if_neg (civitai_ne_file _)]
  · intro other
    rw [hnodes]
    simp

end Tree

/-! ## What an operation keeps -/

section Fetch

variable (root : Path) (slug : String) (version : Int) (id : String)

/-- The row is not `done`. -/
def NotDone (t : Table) : Prop := ∀ r ∈ t, r.id = id → r.status ≠ .done

/-- What the others do to the tree: they put no link in the way, and leave the
directory and the two files of the version alone. -/
structure Respects (t u : LoraTree) : Prop where
  tidy : Tidy root version t → Tidy root version u
  dir : t.isDirAt (civitaiDir root) = true → u.isDirAt (civitaiDir root) = true
  files : ∀ slug, ∀ x ∈ [".safetensors", ".safetensors.tmp"],
    u.node? (filePath root slug version x) = t.node? (filePath root slug version x)

/-- The same for an operation of the fetch, which also keeps what is saved. -/
structure Keeps (w w' : World) : Prop where
  tidy : Tidy root version w.tree → Tidy root version w'.tree
  dir : Tidy root version w.tree → w.tree.isDirAt (civitaiDir root) = true →
    w'.tree.isDirAt (civitaiDir root) = true
  files : Tidy root version w.tree → w.tree.isDirAt (civitaiDir root) = true →
    ∀ x ∈ [".safetensors", ".safetensors.tmp"],
      w'.tree.node? (filePath root slug version x) = w.tree.node? (filePath root slug version x)
  saved : w'.saved = w.saved

/-- Operations that leave the two files alone. -/
def Quiet : Op → Prop
  | .mkdir _ => False
  | .writeSidecar p _ => p = filePath root slug version ".json"
  | .streamDownload _ _ _ _ => False
  | .unlinkQuiet _ => False
  | .replace _ _ => False
  | _ => True

/-- It is not the last step of a fetch. -/
def Unfinished : Op → Prop
  | .setStatus _ target => target ≠ .done
  | _ => True

variable {root slug version id}

theorem Keeps.trans {w w' w'' : World} (h : Keeps root slug version w w')
    (h' : Keeps root slug version w' w'') : Keeps root slug version w w'' where
  tidy ht := h'.tidy (h.tidy ht)
  dir ht hd := h'.dir (h.tidy ht) (h.dir ht hd)
  files ht hd x hx := (h'.files (h.tidy ht) (h.dir ht hd) x hx).trans (h.files ht hd x hx)
  saved := h'.saved.trans h.saved

theorem keeps_of_tree {w w' : World} (htree : w'.tree = w.tree) (hsaved : w'.saved = w.saved) :
    Keeps root slug version w w' := by
  constructor
  · rw [htree]
    exact fun ht => ht
  · rw [htree]
    exact fun _ hd => hd
  · rw [htree]
    exact fun _ _ x _ => rfl
  · exact hsaved

/-! ## Rows that are not done -/

theorem notDone_update {t : Table} (h : NotDone id t) (target : String)
    {f : LoraFetch → LoraFetch} (hid : ∀ r, (f r).id = r.id)
    (hstatus : ∀ r, r.status ≠ .done → (f r).status ≠ .done) :
    NotDone id (t.update target f) := by
  intro r' hr' hrid
  obtain ⟨r, hr, rfl⟩ := mem_update hr'
  split at hrid
  · rename_i htarget
    rw [if_pos htarget]
    exact hstatus r (h r hr (by rw [← hid r, hrid]))
  · rename_i htarget
    rw [if_neg htarget]
    exact h r hr hrid

theorem notDone_transition {t t' : Table} (h : NotDone id t) {target : String}
    {status : FetchStatus} {f : LoraFetch → LoraFetch} (hid : ∀ r, (f r).id = r.id)
    (hstatus : ∀ r, (f r).status = status) (hne : status ≠ .done)
    (hstep : t.transition target status f = .ok t') : NotDone id t' := by
  unfold Table.transition at hstep
  split at hstep
  · cases hstep
  · split at hstep
    · cases hstep
      refine notDone_update h target hid fun r _ => ?_
      rw [hstatus]
      exact hne
    · cases hstep

theorem notDone_tableWrite {t : Table} (h : NotDone id t) {r : Except TableError Table}
    (hr : ∀ t', r = .ok t' → NotDone id t') :
    NotDone id (fetch_dedupe.tableWrite r t).2 := by
  cases r with
  | ok t' => exact hr t' rfl
  | error e => exact h

theorem notDone_execFetch (inp : fetch_dedupe.FetchInput) {op : Op} (hop : Unfinished op)
    {t : Table} (h : NotDone id t) :
    NotDone id (fetch_dedupe.execFetch inp op t).2 := by
  cases op with
  | setStatus target status =>
    apply notDone_tableWrite h
    intro t' ht'
    refine notDone_transition h ?_ ?_ hop ht' <;> exact fun _ => rfl
  | setFailed target code message handover =>
    apply notDone_tableWrite h
    intro t' ht'
    have hne : FetchStatus.failed ≠ .done := by decide
    refine notDone_transition h ?_ ?_ hne ht' <;> exact fun _ => rfl
  | setTotalBytes target total => exact notDone_update h target (fun _ => rfl) fun _ hr => hr
  | setDestName target name => exact notDone_update h target (fun _ => rfl) fun _ hr => hr
  | streamDownload target url tmp size =>
    exact notDone_update h target (fun _ => rfl) fun _ hr => hr
  | _ => exact h

theorem treeWrite_table (r : Option LoraTree) (w : World) :
    (treeWrite r w).2.table = w.table ∧ (treeWrite r w).2.saved = w.saved := by
  cases r <;> exact ⟨rfl, rfl⟩

theorem notDone_effect (inp : Input) {op : Op} (hop : Unfinished op) {w : World}
    (h : NotDone id w.table) : NotDone id (effect inp op w).2.table := by
  cases op with
  | mkdir p =>
    unfold effect
    rw [(treeWrite_table _ w).1]
    exact h
  | isFile p => exact h
  | writeSidecar p sidecar =>
    unfold effect
    dsimp only
    split
    · exact h
    · rename_i u hu
      rw [(treeWrite_table _ _).1]
      exact h
  | streamDownload target url tmp size =>
    unfold effect
    dsimp only
    split
    · exact h
    · split
      · exact h
      · exact notDone_update h target (fun _ => rfl) fun _ hr => hr
  | unlinkQuiet p => exact h
  | replace src dst =>
    unfold effect
    rw [(treeWrite_table _ w).1]
    exact h
  | getById target => exact h
  | setStatus target status => exact notDone_execFetch _ hop h
  | setFailed target code message handover => exact notDone_execFetch _ hop h
  | setTotalBytes target total => exact notDone_execFetch _ hop h
  | setDestName target name => exact notDone_execFetch _ hop h
  | acquire v => exact h
  | release v => exact h
  | fetchMetadata v => exact h
  | expectedSize size => exact h
  | diskFree => exact h
  | evictFor size => exact h
  | validateDownloadUrl url => exact h

theorem notDone_exec (env : Nat → Input) {op : Op} (hop : Unfinished op) {w : World}
    (h : NotDone id w.table) : NotDone id (exec env op w).2.table := by
  unfold exec
  split
  · exact h
  · exact notDone_effect _ hop h

/-! ## Quiet operations -/

/-- The names of the version can stand in a directory. -/
def WellNamed (slug : String) (version : Int) : Prop :=
  ∀ x ∈ suffixes, Component (stem slug version ++ x)

theorem file_ne {x y : String} (hx : x ∈ suffixes) (hy : y ∈ suffixes) (h : x ≠ y) :
    stem slug version ++ x ≠ stem slug version ++ y := by
  intro heq
  have hpath : filePath [] slug version x = filePath [] slug version y := by
    simp [filePath, heq]
  exact h (filePath_injective hx hy hpath).2.2

theorem kept_suffix {x : String} (hx : x ∈ [".safetensors", ".safetensors.tmp"]) :
    x ∈ suffixes ∧ x ≠ ".json" ∧ x ≠ ".json.tmp" := by
  revert x
  decide

theorem keeps_writeSidecar (inp : Input) (s : Sidecar) (w : World)
    (hnames : WellNamed slug version) : Keeps root slug version w
      (effect inp (.writeSidecar (filePath root slug version ".json") s) w).2 := by
  unfold effect
  dsimp only
  rw [sidecarTmp_eq]
  rcases hcreate : createFile w.tree (filePath root slug version ".json.tmp")
    (sidecarContents inp s) with _ | u
  · exact keeps_of_tree rfl rfl
  · have htmp : Component (stem slug version ++ ".json.tmp") := hnames _ (by decide)
    dsimp only
    rcases hrename : u.rename (filePath root slug version ".json.tmp")
      (filePath root slug version ".json") with _ | v
    · refine ⟨fun ht => ?_, fun ht _ => ?_, fun ht hd x hx => ?_, rfl⟩
      · exact (createFile_spec ht (by decide) htmp hcreate).1
      · exact (createFile_spec ht (by decide) htmp hcreate).2.1
      · obtain ⟨-, -, hfiles, -⟩ := createFile_spec ht (by decide) htmp hcreate
        obtain ⟨hx, -, hne⟩ := kept_suffix hx
        exact (hfiles _).trans (if_neg (file_ne hx (by decide) hne))
    · refine ⟨fun ht => ?_, fun ht _ => ?_, fun ht hd x hx => ?_, rfl⟩
      · obtain ⟨htu, hdu, -⟩ := createFile_spec ht (by decide) htmp hcreate
        exact (rename_files htu hdu (by decide) hrename).1
      · obtain ⟨htu, hdu, -⟩ := createFile_spec ht (by decide) htmp hcreate
        exact (rename_files htu hdu (by decide) hrename).2.1
      · obtain ⟨htu, hdu, hfiles, -⟩ := createFile_spec ht (by decide) htmp hcreate
        obtain ⟨-, -, node, -, hmoved⟩ := rename_files htu hdu (by decide) hrename
        obtain ⟨hx, hne, hne'⟩ := kept_suffix hx
        refine (hmoved _).trans ?_
        rw [if_neg (file_ne hx (by decide) hne), if_neg (file_ne hx (by decide) hne'), hfiles,
          if_neg (file_ne hx (by decide) hne')]
        rfl

theorem keeps_effect (inp : Input) {op : Op} (hop : Quiet root slug version op) (w : World)
    (hnames : WellNamed slug version) : Keeps root slug version w (effect inp op w).2 := by
  cases op with
  | writeSidecar p sidecar =>
    subst hop
    exact keeps_writeSidecar inp sidecar w hnames
  | mkdir p => exact hop.elim
  | streamDownload target url tmp size => exact hop.elim
  | unlinkQuiet p => exact hop.elim
  | replace src dst => exact hop.elim
  | _ => exact keeps_of_tree rfl rfl

theorem keeps_met {env : Nat → Input} (slug : String)
    (h : ∀ n t, Respects root version t ((env n).others t)) (w : World) :
    Keeps root slug version w (met env w) where
  tidy := (h w.clock w.tree).tidy
  dir _ := (h w.clock w.tree).dir
  files _ _ := (h w.clock w.tree).files slug
  saved := rfl

theorem keeps_exec {env : Nat → Input}
    (hothers : ∀ n t, Respects root version t ((env n).others t)) {op : Op}
    (hop : Quiet root slug version op) (w : World) (hnames : WellNamed slug version) :
    Keeps root slug version w (exec env op w).2 := by
  unfold exec
  split
  · exact keeps_met slug hothers w
  · exact (keeps_met slug hothers w).trans (keeps_effect _ hop _ hnames)

/-! ## Assertions -/

/-- The file is where the fetch puts it, and it is what the download has saved,
if there was one. -/
structure InPlace (root : Path) (slug : String) (version : Int) (w : World) : Prop where
  tidy : Tidy root version w.tree
  dir : w.tree.isDirAt (civitaiDir root) = true
  file : ∃ c, w.tree.node? (destPath root slug version) = some (.file c) ∧
    (w.saved = none ∨ w.saved = some c)
  short : ¬ TooLong (destPath root slug version)

/-- The file is in place, and the row has its name. -/
structure Settled (root : Path) (slug : String) (version : Int) (id : String) (w : World) :
    Prop extends InPlace root slug version w where
  named : ∀ r ∈ w.table, r.id = id → r.destName = some (canonicalName slug version)

/-- The download has saved the temporary file. -/
structure Loaded (root : Path) (slug : String) (version : Int) (w : World) : Prop where
  tidy : Tidy root version w.tree
  dir : w.tree.isDirAt (civitaiDir root) = true
  file : ∃ c, w.tree.node? (tmpPath (destPath root slug version)) = some (.file c) ∧
    w.saved = some c
  short : ¬ TooLong (tmpPath (destPath root slug version))

/-- Nothing is downloaded yet. -/
structure Fresh (root : Path) (version : Int) (w : World) : Prop where
  tidy : Tidy root version w.tree
  saved : w.saved = none

structure Ready (root : Path) (version : Int) (w : World) : Prop extends
    Fresh root version w where
  dir : w.tree.isDirAt (civitaiDir root) = true

theorem InPlace.keeps {w w' : World} (h : InPlace root slug version w)
    (hk : Keeps root slug version w w') : InPlace root slug version w' where
  tidy := hk.tidy h.tidy
  dir := hk.dir h.tidy h.dir
  file := by
    obtain ⟨c, hc, hsaved⟩ := h.file
    rw [destPath_eq] at hc ⊢
    exact ⟨c, (hk.files h.tidy h.dir _ (by simp)).trans hc, hk.saved ▸ hsaved⟩
  short := h.short

theorem Loaded.keeps {w w' : World} (h : Loaded root slug version w)
    (hk : Keeps root slug version w w') : Loaded root slug version w' where
  tidy := hk.tidy h.tidy
  dir := hk.dir h.tidy h.dir
  file := by
    obtain ⟨c, hc, hsaved⟩ := h.file
    rw [tmpPath_eq] at hc ⊢
    exact ⟨c, (hk.files h.tidy h.dir _ (by simp)).trans hc, hk.saved ▸ hsaved⟩
  short := h.short

theorem Fresh.keeps {w w' : World} (h : Fresh root version w) (hk : Keeps root slug version w w') :
    Fresh root version w' := ⟨hk.tidy h.tidy, hk.saved.trans h.saved⟩

theorem Ready.keeps {w w' : World} (h : Ready root version w) (hk : Keeps root slug version w w') :
    Ready root version w' := ⟨h.toFresh.keeps hk, hk.dir h.tidy h.dir⟩

/-- The destination has a shorter name than the temporary file. -/
theorem short_dest (h : ¬ TooLong (tmpPath (destPath root slug version))) :
    ¬ TooLong (destPath root slug version) := by
  rw [tmpPath_eq] at h
  rw [destPath_eq]
  have hsuffix : byteLength ".safetensors" ≤ byteLength ".safetensors.tmp" := by decide
  simp only [TooLong, filePath, List.getLast?_append, List.getLast?_singleton, Option.some_or,
    Option.mem_some_iff, exists_eq_left', byteLength, String.toList_append, List.map_append,
    List.sum_append] at h hsuffix ⊢
  omega

theorem quiet_sidecar (s : Sidecar) : Quiet root slug version
    (.writeSidecar (pathWithSuffix (destPath root slug version) ".json") s) :=
  sidecarPath_eq root slug version

/-! ## Single operations -/

variable {env : Nat → Input} {A : World → Prop}

theorem ends_ask (op : Op) {A : op.Ans → World → Prop} {B : World → Prop} {w : World}
    (hok : ∀ a, (exec env op w).1 = .ok a → A a (exec env op w).2)
    (hbad : ∀ e, (exec env op w).1 = .error e → B (exec env op w).2) :
    (ask op).Ends (exec env) A B w := by
  unfold ask Co.Ends
  rw [Co.run_call]
  rcases hr : exec env op w with ⟨e | a, w'⟩ <;> rw [hr] at hok hbad
  · exact hbad e rfl
  · exact hok a rfl

/-- After an operation whose exceptions are failures. -/
def Outcome {α : Type} (A : α → World → Prop) (C : World → Prop) :
    Except Failure α → World → Prop
  | .ok a, w => A a w
  | .error _, w => C w

theorem ends_attempt {op : Op} (f : Exc → Option Failure) {A : op.Ans → World → Prop}
    {C : World → Prop} {w : World} (h : (ask op).Ends (exec env) A C w) :
    (attempt op f).Ends (exec env) (Outcome A C) C w := by
  have hmap : (Except.ok <$> ask op : Prog (Except Failure op.Ans)).Ends (exec env)
      (Outcome A C) C w := by
    unfold Co.Ends at h ⊢
    rw [Co.run_map]
    rcases hr : (ask op).run (exec env) w with ⟨e | a, w'⟩ <;> rw [hr] at h <;> exact h
  refine Co.ends_tryCatch hmap fun e w' hC => ?_
  split
  · exact Co.ends_pure hC
  · exact Co.ends_throw hC

/-- The row is not done, and the assertion holds too. -/
def Live (A : World → Prop) (id : String) (w : World) : Prop := A w ∧ NotDone id w.table

/-- An assertion that quiet operations keep. -/
theorem ends_quiet (hothers : ∀ n t, Respects root version t ((env n).others t))
    (hnames : WellNamed slug version)
    (hA : ∀ w w', A w → Keeps root slug version w w' → A w') (op : Op)
    (hop : Quiet root slug version op) (hu : Unfinished op) {w : World} (h : Live A id w) :
    (ask op).Ends (exec env) (fun _ => Live A id) (fun w' => NotDone id w'.table) w := by
  have hnot := notDone_exec env hu h.2
  apply ends_ask op
  · exact fun _ _ => ⟨hA _ _ h.1 (keeps_exec hothers hop w hnames), hnot⟩
  · exact fun _ _ => hnot

/-- Once the fetch has failed the row is not done any more. -/
theorem ends_unfinished {α : Type} {p : Prog α} (hp : p.All Unfinished) {w : World}
    (h : NotDone id w.table) : p.Ends (exec env) (fun _ w' => NotDone id w'.table)
      (fun w' => NotDone id w'.table) w :=
  Co.ends_of_all (fun _ _ hop hw => notDone_exec env hop hw) hp h

/-- How a fetch leaves the row: not done, or done and settled. -/
def Over (root : Path) (version : Int) (id : String) (w : World) : Prop :=
  NotDone id w.table ∨ ∃ file : PrimaryFile, Settled root (sanitizeSlug file.name) version id w

theorem all_setFailed (row : LoraFetch) (f : Failure) : (setFailed row f).All Unfinished := by
  unfold setFailed ask
  rw [Co.all_call]
  trivial

theorem ends_setFailed {row : LoraFetch} (f : Failure) {w : World} (h : NotDone id w.table) :
    (setFailed row f).Ends (exec env) (fun _ => Over root version id)
      (fun w' => NotDone id w'.table) w :=
  (ends_unfinished (all_setFailed row f) h).mono (fun _ _ hn => Or.inl hn) fun _ hn => hn

theorem ends_orFail {α : Type} {row : LoraFetch} {rest : α → Prog Unit} {A : α → World → Prop}
    {C : World → Prop} (hC : ∀ w, C w → NotDone id w.table)
    (hrest : ∀ a w, A a w → (rest a).Ends (exec env) (fun _ => Over root version id)
      (fun w' => NotDone id w'.table) w) {r : Except Failure α} {w : World}
    (h : Outcome A C r w) : (orFail row rest r).Ends (exec env)
      (fun _ => Over root version id) (fun w' => NotDone id w'.table) w := by
  cases r with
  | ok a => exact hrest a w h
  | error f => exact ends_setFailed f (hC w h)

/-! ## The last steps -/

theorem named_update {t : Table} {name : String} (h : ∀ r ∈ t, r.id = id → r.destName = some name)
    {target : String} {f : LoraFetch → LoraFetch} (hid : ∀ r, (f r).id = r.id)
    (hname : ∀ r, (f r).destName = r.destName) :
    ∀ r ∈ t.update target f, r.id = id → r.destName = some name := by
  intro r' hr' hrid
  obtain ⟨r, hr, rfl⟩ := mem_update hr'
  split at hrid
  · rename_i htarget
    rw [if_pos htarget, hname]
    exact h r hr (by rw [← hid r, hrid])
  · rename_i htarget
    rw [if_neg htarget]
    exact h r hr hrid

/-- A status is written, or the table stays. -/
theorem exec_setStatus (env : Nat → Input) (id : String) (target : FetchStatus) (w : World) :
    ((exec env (.setStatus id target) w).1 = .ok () ∧
        ∃ now, w.table.setStatus id target now = .ok (exec env (.setStatus id target) w).2.table) ∨
      ((∃ e, (exec env (.setStatus id target) w).1 = .error e) ∧
        (exec env (.setStatus id target) w).2.table = w.table) := by
  unfold exec
  rcases (env w.clock).fault with _ | e
  · simp only [effect, fetch_dedupe.execFetch, met]
    rcases hstep : w.table.setStatus id target (env w.clock).now with e | t
    · exact Or.inr ⟨⟨_, rfl⟩, rfl⟩
    · exact Or.inl ⟨rfl, _, hstep⟩
  · exact Or.inr ⟨⟨e, rfl⟩, rfl⟩

theorem Settled.setStatus (hothers : ∀ n t, Respects root version t ((env n).others t))
    (hnames : WellNamed slug version) (target : FetchStatus) {w : World}
    (h : Settled root slug version id w) :
    Settled root slug version id (exec env (.setStatus id target) w).2 := by
  have hquiet : Quiet root slug version (.setStatus id target) := trivial
  refine ⟨h.toInPlace.keeps (keeps_exec hothers hquiet w hnames), ?_⟩
  rcases exec_setStatus env id target w with ⟨-, now, hstep⟩ | ⟨-, hsame⟩
  · unfold Table.setStatus Table.transition at hstep
    split at hstep
    · cases hstep
    · split at hstep
      · rw [← Except.ok.inj hstep]
        refine named_update h.named ?_ ?_ <;> exact fun _ => rfl
      · cases hstep
  · rw [hsame]
    exact h.named

section Steps

variable (hothers : ∀ n t, Respects root version t ((env n).others t))
  (hnames : WellNamed slug version)

include hothers hnames

theorem ends_setDestName {w : World} (h : Live (InPlace root slug version) id w) :
    (ask (.setDestName id (canonicalName slug version))).Ends (exec env)
      (fun _ => Live (Settled root slug version id) id) (fun w' => NotDone id w'.table) w := by
  have hquiet : Quiet root slug version (.setDestName id (canonicalName slug version)) := trivial
  have hplace := h.1.keeps (keeps_exec hothers hquiet w hnames)
  have hu : Unfinished (.setDestName id (canonicalName slug version)) := trivial
  have hnot := notDone_exec env hu h.2
  apply ends_ask _
  · intro a hok
    refine ⟨⟨hplace, ?_⟩, hnot⟩
    rw [exec_ok hok]
    intro r hr hrid
    obtain ⟨r', hr', rfl⟩ := mem_update hr
    split at hrid
    · rename_i htarget
      rw [if_pos htarget]
    · rename_i htarget
      exact absurd hrid htarget
  · exact fun _ _ => hnot

theorem ends_setStatus {target : FetchStatus} (hne : target ≠ .done) {w : World}
    (h : Live (Settled root slug version id) id w) :
    (ask (.setStatus id target)).Ends (exec env)
      (fun _ => Live (Settled root slug version id) id) (fun w' => NotDone id w'.table) w := by
  have hu : Unfinished (.setStatus id target) := hne
  have hlive : Live (Settled root slug version id) id (exec env (.setStatus id target) w).2 :=
    ⟨h.1.setStatus hothers hnames target, notDone_exec env hu h.2⟩
  apply ends_ask _
  · exact fun _ _ => hlive
  · exact fun _ _ => hlive.2

theorem ends_done {w : World} (h : Live (Settled root slug version id) id w) :
    (ask (.setStatus id .done)).Ends (exec env)
      (fun _ => Settled root slug version id) (fun w' => NotDone id w'.table) w := by
  apply ends_ask _
  · exact fun _ _ => h.1.setStatus hothers hnames .done
  · intro e herror
    rcases exec_setStatus env id .done w with ⟨hok, -⟩ | ⟨-, hsame⟩
    · rw [hok] at herror
      cases herror
    · rw [hsame]
      exact h.2

theorem ends_finish {row : LoraFetch} (hid : row.id = id) {w : World}
    (h : Live (InPlace root slug version) id w) :
    (finish row (canonicalName slug version)).Ends (exec env)
      (fun _ => Settled root slug version id) (fun w' => NotDone id w'.table) w := by
  unfold finish
  rw [hid]
  refine Co.ends_bind (ends_setDestName hothers hnames h) fun _ w' h' => ?_
  exact ends_done hothers hnames h'

/-! ## The steps on the tree -/

theorem ends_isFile {w : World} (h : Live (Ready root version) id w) :
    (ask (.isFile (destPath root slug version))).Ends (exec env)
      (fun found w' => Live (Ready root version) id w' ∧
        (found = true → Live (InPlace root slug version) id w'))
      (fun w' => NotDone id w'.table) w := by
  have hquiet : Quiet root slug version (.isFile (destPath root slug version)) := trivial
  have hu : Unfinished (.isFile (destPath root slug version)) := trivial
  have hready := h.1.keeps (keeps_exec hothers hquiet w hnames)
  have hnot := notDone_exec env hu h.2
  apply ends_ask (.isFile (destPath root slug version))
  · intro found hok
    refine ⟨⟨hready, hnot⟩, fun hfound => ⟨?_, hnot⟩⟩
    have hrun := exec_ok hok
    rw [hrun] at hok hready ⊢
    simp only [effect] at hok hready ⊢
    split at hok
    · cases hok
    · rename_i hshort
      have hplain := hready.tidy.plain hready.dir (by decide) (hnames ".safetensors" (by decide))
      have hfile := (Except.ok.inj hok).trans hfound
      refine ⟨hready.tidy, hready.dir, ?_, hshort⟩
      rw [destPath_eq] at hfile ⊢
      obtain ⟨c, hc⟩ := hplain.isFile_iff.mp hfile
      exact ⟨c, hc, Or.inl hready.saved⟩
  · exact fun _ _ => hnot

omit hnames in
theorem ends_mkdir {w : World} (h : Live (Fresh root version) id w) :
    (ask (.mkdir (civitaiDir root))).Ends (exec env) (fun _ => Live (Ready root version) id)
      (fun w' => NotDone id w'.table) w := by
  have hu : Unfinished (.mkdir (civitaiDir root)) := trivial
  have hnot := notDone_exec env hu h.2
  apply ends_ask _
  · intro a hok
    refine ⟨?_, hnot⟩
    have hrun := exec_ok hok
    rw [hrun] at hok ⊢
    have hmet : Fresh root version (met env w) := h.1.keeps (keeps_met "" hothers w)
    simp only [effect] at hok ⊢
    rcases hmake : (met env w).tree.mkdirs (civitaiDir root) with _ | u
    · rw [hmake] at hok
      cases hok
    · obtain ⟨htidy, hdir, -⟩ := mkdirs_files hmet.tidy hmake
      exact ⟨⟨htidy, hmet.saved⟩, hdir⟩
  · exact fun _ _ => hnot

theorem ends_stream {w : World} (h : Live (Ready root version) id w) (target url : String)
    (size : Int) :
    (ask (.streamDownload target url (tmpPath (destPath root slug version)) size)).Ends (exec env)
      (fun _ => Live (Loaded root slug version) id) (fun w' => NotDone id w'.table) w := by
  have hu : Unfinished (.streamDownload target url (tmpPath (destPath root slug version)) size) :=
    trivial
  have hnot := notDone_exec env hu h.2
  apply ends_ask _
  · intro digest hok
    refine ⟨?_, hnot⟩
    have hrun := exec_ok hok
    rw [hrun] at hok ⊢
    have hmet : Ready root version (met env w) := h.1.keeps (keeps_met slug hothers w)
    simp only [effect] at hok ⊢
    rcases hstream : (env w.clock).stream with e | ⟨contents, result⟩
    · rw [hstream] at hok
      cases hok
    simp only [hstream] at hok ⊢
    rcases hcreate : createFile (met env w).tree (tmpPath (destPath root slug version))
      contents with _ | u
    · rw [hcreate] at hok
      cases hok
    rw [tmpPath_eq] at hcreate
    obtain ⟨htidy, hdir, hfiles, hshort⟩ :=
      createFile_spec hmet.tidy (by decide) (hnames ".safetensors.tmp" (by decide)) hcreate
    refine ⟨htidy, hdir, ⟨contents, ?_, rfl⟩, ?_⟩
    · rw [tmpPath_eq]
      exact (hfiles _).trans (if_pos rfl)
    · rw [tmpPath_eq]
      exact hshort
  · exact fun _ _ => hnot

omit hnames in
theorem ends_replace {w : World} (h : Live (Loaded root slug version) id w) :
    (ask (.replace (tmpPath (destPath root slug version)) (destPath root slug version))).Ends
      (exec env) (fun _ => Live (InPlace root slug version) id)
      (fun w' => NotDone id w'.table) w := by
  have hu : Unfinished (.replace (tmpPath (destPath root slug version))
    (destPath root slug version)) := trivial
  have hnot := notDone_exec env hu h.2
  apply ends_ask _
  · intro a hok
    refine ⟨?_, hnot⟩
    have hrun := exec_ok hok
    rw [hrun] at hok ⊢
    have hmet : Loaded root slug version (met env w) := h.1.keeps (keeps_met slug hothers w)
    simp only [effect] at hok ⊢
    rcases hrename : (met env w).tree.rename (tmpPath (destPath root slug version))
      (destPath root slug version) with _ | u
    · rw [hrename] at hok
      cases hok
    obtain ⟨c, hc, hsaved⟩ := hmet.file
    rw [tmpPath_eq, destPath_eq] at hrename
    rw [tmpPath_eq] at hc
    obtain ⟨htidy, hdir, node, hnode, hfiles⟩ := rename_files hmet.tidy hmet.dir (by decide) hrename
    refine ⟨htidy, hdir, ⟨c, ?_, Or.inr hsaved⟩, short_dest hmet.short⟩
    rw [destPath_eq]
    refine (hfiles _).trans ?_
    rw [if_pos rfl, ← hnode]
    exact hc
  · exact fun _ _ => hnot

end Steps

end Fetch

/-! ## The program -/

theorem wellNamed (filename : String) (version : Int) :
    WellNamed (sanitizeSlug filename) version :=
  fun x hx => component_stem filename version x hx

section Program

variable {cfg : Config} {row : LoraFetch} {env : Nat → Input} {w : World}

/-- The row is not done after it, or the file is in place under its name. -/
abbrev Ends (cfg : Config) (row : LoraFetch) (env : Nat → Input) (p : Prog Unit) (w : World) :
    Prop :=
  p.Ends (exec env) (fun _ => Over cfg.lorasRoot row.civitaiVersionId row.id)
    (fun w' => NotDone row.id w'.table) w

theorem ends_failed {p : Prog Unit} (hp : p.All Unfinished) (h : NotDone row.id w.table) :
    Ends cfg row env p w :=
  (ends_unfinished hp h).mono (fun _ _ hn => Or.inl hn) fun _ hn => hn

section Steps

variable (hothers : ∀ n t, Respects cfg.lorasRoot row.civitaiVersionId t ((env n).others t))

include hothers

theorem ends_installed (file : PrimaryFile)
    (h : Live (InPlace cfg.lorasRoot (sanitizeSlug file.name) row.civitaiVersionId) row.id w) :
    Ends cfg row env (finish row (canonicalName (sanitizeSlug file.name) row.civitaiVersionId))
      w := by
  refine (ends_finish hothers (wellNamed file.name _) rfl h).mono ?_ fun _ hn => hn
  exact fun _ _ hs => Or.inr ⟨file, hs⟩

theorem ends_install (file : PrimaryFile) (metadata : List (String × Json)) (actualSha : String)
    (h : Live (Loaded cfg.lorasRoot (sanitizeSlug file.name) row.civitaiVersionId) row.id w) :
    let dest := destPath cfg.lorasRoot (sanitizeSlug file.name) row.civitaiVersionId
    Ends cfg row env (install row file metadata
      (canonicalName (sanitizeSlug file.name) row.civitaiVersionId) dest (tmpPath dest)
      actualSha) w := by
  intro dest
  have hnames := wellNamed file.name row.civitaiVersionId
  have hne : FetchStatus.verifying ≠ .done := by decide
  unfold install
  refine Co.ends_bind (ends_quiet hothers hnames (fun _ _ => Loaded.keeps)
    (.setStatus row.id .verifying) trivial hne h)
    fun _ w₁ h₁ => ?_
  split
  · refine ends_failed ?_ h₁.2
    exact Co.all_bind ((Co.all_call _).mpr trivial) fun _ => all_setFailed row _
  · refine Co.ends_bind (ends_quiet hothers hnames (fun _ _ => Loaded.keeps) _
      (quiet_sidecar _) trivial h₁) fun _ w₂ h₂ => ?_
    exact Co.ends_bind (ends_replace hothers h₂) fun _ w₃ h₃ => ends_installed hothers file h₃

theorem ends_takeExisting (file : PrimaryFile) (metadata : List (String × Json))
    (h : Live (InPlace cfg.lorasRoot (sanitizeSlug file.name) row.civitaiVersionId) row.id w) :
    let dest := destPath cfg.lorasRoot (sanitizeSlug file.name) row.civitaiVersionId
    Ends cfg row env (takeExisting row file metadata
      (canonicalName (sanitizeSlug file.name) row.civitaiVersionId) dest) w := by
  intro dest
  have hnames := wellNamed file.name row.civitaiVersionId
  have hne : FetchStatus.verifying ≠ .done := by decide
  unfold takeExisting
  refine Co.ends_bind (ends_quiet hothers hnames (fun _ _ => InPlace.keeps)
    (.isFile (pathWithSuffix dest ".json")) trivial trivial h) fun hasSidecar w₁ h₁ => ?_
  have hrest : ∀ w, Live (InPlace cfg.lorasRoot (sanitizeSlug file.name) row.civitaiVersionId)
      row.id w → Ends cfg row env (do
        ask (.setDestName row.id (canonicalName (sanitizeSlug file.name) row.civitaiVersionId))
        ask (.setStatus row.id .verifying)
        ask (.setStatus row.id .done)) w := by
    intro w₂ h₂
    refine Co.ends_bind (ends_setDestName hothers hnames h₂) fun _ w₃ h₃ => ?_
    refine Co.ends_bind (ends_setStatus hothers hnames hne h₃) fun _ w₄ h₄ => ?_
    refine (ends_done hothers hnames h₄).mono ?_ fun _ hn => hn
    exact fun _ _ hs => Or.inr ⟨file, hs⟩
  dsimp only
  split
  · exact hrest w₁ h₁
  · exact Co.ends_bind (ends_quiet hothers hnames (fun _ _ => InPlace.keeps) _
      (quiet_sidecar _) trivial h₁) fun _ => hrest

theorem ends_download (file : PrimaryFile) (metadata : List (String × Json)) (expectedSize : Int)
    (h : Live (Ready cfg.lorasRoot row.civitaiVersionId) row.id w) :
    Ends cfg row env (download cfg row file metadata
      (canonicalName (sanitizeSlug file.name) row.civitaiVersionId)
      (destPath cfg.lorasRoot (sanitizeSlug file.name) row.civitaiVersionId) expectedSize) w := by
  have hnames := wellNamed file.name row.civitaiVersionId
  have hready : ∀ w w', Ready cfg.lorasRoot row.civitaiVersionId w →
      Keeps cfg.lorasRoot (sanitizeSlug file.name) row.civitaiVersionId w w' →
      Ready cfg.lorasRoot row.civitaiVersionId w' := fun _ _ => Ready.keeps
  unfold download
  refine Co.ends_bind (ends_attempt _ (ends_quiet hothers hnames hready
    (.validateDownloadUrl file.downloadUrl) trivial trivial h)) fun checked w₁ h₁ => ?_
  refine ends_orFail (fun _ hn => hn) (fun _ w₂ h₂ => ?_) h₁
  refine Co.ends_bind (ends_attempt _ (ends_stream hothers hnames h₂ _ _ _)) fun sha w₃ h₃ => ?_
  cases sha with
  | ok actualSha => exact ends_install hothers file metadata actualSha h₃
  | error failure =>
    refine ends_failed ?_ h₃
    exact Co.all_bind ((Co.all_call _).mpr trivial) fun _ => all_setFailed row _

theorem ends_makeRoom (expectedSize : Int) {rest : Prog Unit}
    (hrest : ∀ w, Live (Ready cfg.lorasRoot row.civitaiVersionId) row.id w → Ends cfg row env rest w)
    (h : Live (Ready cfg.lorasRoot row.civitaiVersionId) row.id w) :
    Ends cfg row env (makeRoom row expectedSize rest) w := by
  have hnames := wellNamed "" row.civitaiVersionId
  have hready : ∀ w w', Ready cfg.lorasRoot row.civitaiVersionId w →
      Keeps cfg.lorasRoot (sanitizeSlug "") row.civitaiVersionId w w' →
      Ready cfg.lorasRoot row.civitaiVersionId w' := fun _ _ => Ready.keeps
  unfold makeRoom
  refine Co.ends_bind (ends_quiet hothers hnames hready .diskFree trivial trivial h)
    fun freeBytes w₁ h₁ => ?_
  split
  · refine Co.ends_bind (ends_attempt _ (ends_quiet hothers hnames hready
      (.evictFor (expectedSize * 2)) trivial trivial h₁)) fun evicted w₂ h₂ => ?_
    exact ends_orFail (fun _ hn => hn) (fun _ => hrest) h₂
  · exact hrest w₁ h₁

theorem ends_fetchFile (file : PrimaryFile) (metadata : List (String × Json)) (expectedSize : Int)
    (h : Live (Fresh cfg.lorasRoot row.civitaiVersionId) row.id w) :
    Ends cfg row env (fetchFile cfg row file metadata expectedSize) w := by
  have hnames := wellNamed file.name row.civitaiVersionId
  have hdir : (destPath cfg.lorasRoot (sanitizeSlug file.name) row.civitaiVersionId).dropLast =
      civitaiDir cfg.lorasRoot := by
    rw [destPath_eq]
    exact dropLast_civitai _
  unfold fetchFile
  dsimp only
  rw [hdir]
  refine Co.ends_bind (ends_mkdir hothers h) fun _ w₁ h₁ => ?_
  refine Co.ends_bind (ends_isFile hothers hnames h₁) fun found w₂ h₂ => ?_
  split
  · rename_i hfound
    exact ends_takeExisting hothers file metadata (h₂.2 hfound)
  · exact ends_makeRoom hothers expectedSize
      (fun _ h₃ => ends_download hothers file metadata expectedSize h₃) h₂.1

theorem ends_fetchPrimary (metadata : List (String × Json))
    (h : Live (Fresh cfg.lorasRoot row.civitaiVersionId) row.id w) :
    Ends cfg row env (fetchPrimary cfg row metadata) w := by
  have hnames := wellNamed "" row.civitaiVersionId
  have hfresh : ∀ w w', Fresh cfg.lorasRoot row.civitaiVersionId w →
      Keeps cfg.lorasRoot (sanitizeSlug "") row.civitaiVersionId w w' →
      Fresh cfg.lorasRoot row.civitaiVersionId w' := fun _ _ => Fresh.keeps
  unfold fetchPrimary
  split
  · exact ends_setFailed _ h.2
  · rename_i file _
    refine Co.ends_bind (ends_quiet hothers hnames hfresh (.expectedSize file.sizeKB)
      trivial trivial h) fun expectedSize w₁ h₁ => ?_
    split
    · exact ends_setFailed _ h₁.2
    · have hrest := fun w => ends_fetchFile (w := w) hothers file metadata expectedSize
      dsimp only
      split
      · exact Co.ends_bind (ends_quiet hothers hnames hfresh
          (.setTotalBytes row.id expectedSize.toNat) trivial trivial h₁) fun _ => hrest
      · exact hrest w₁ h₁

theorem ends_fetch (h : Live (Fresh cfg.lorasRoot row.civitaiVersionId) row.id w) :
    Ends cfg row env (fetch cfg row) w := by
  have hnames := wellNamed "" row.civitaiVersionId
  have hfresh : ∀ w w', Fresh cfg.lorasRoot row.civitaiVersionId w →
      Keeps cfg.lorasRoot (sanitizeSlug "") row.civitaiVersionId w w' →
      Fresh cfg.lorasRoot row.civitaiVersionId w' := fun _ _ => Fresh.keeps
  have hne : FetchStatus.downloading ≠ .done := by decide
  unfold fetch
  refine Co.ends_bind (ends_quiet hothers hnames hfresh
    (.setStatus row.id .downloading) trivial hne h) fun _ w₁ h₁ => ?_
  refine Co.ends_bind (ends_attempt _ (ends_quiet hothers hnames hfresh
    (.fetchMetadata row.civitaiVersionId) trivial trivial h₁)) fun metadata w₂ h₂ => ?_
  exact ends_orFail (fun _ hn => hn) (fun data _ => ends_fetchPrimary hothers data) h₂

/-! ## The whole task -/

theorem ends_guarded (h : Live (Fresh cfg.lorasRoot row.civitaiVersionId) row.id w) :
    Ends cfg row env (guarded cfg row) w := by
  have hrest : ∀ (p : Prog Unit) w, p.All Unfinished → NotDone row.id w.table →
      Ends cfg row env p w := fun p w hp hn => ends_failed hp hn
  unfold guarded
  refine Co.ends_tryCatch (ends_fetch hothers h) fun e w₁ h₁ => ?_
  split
  · refine hrest _ w₁ ?_ h₁
    exact Co.all_bind ((Co.all_call _).mpr trivial) fun _ => trivial
  · exact hrest _ w₁ ((Co.all_call _).mpr trivial) h₁

/-- What is settled stays so when the lock is let go. -/
theorem over_release (v : Int) (h : Over cfg.lorasRoot row.civitaiVersionId row.id w) :
    Over cfg.lorasRoot row.civitaiVersionId row.id (exec env (.release v) w).2 := by
  rcases h with hnot | ⟨file, hs⟩
  · have hu : Unfinished (.release v) := trivial
    exact Or.inl (notDone_exec env hu hnot)
  · have hquiet : Quiet cfg.lorasRoot (sanitizeSlug file.name) row.civitaiVersionId
        (.release v) := trivial
    refine Or.inr ⟨file, hs.toInPlace.keeps (keeps_exec hothers hquiet w (wellNamed _ _)), ?_⟩
    have htable : (exec env (.release v) w).2.table = w.table := by
      unfold exec
      rcases (env w.clock).fault with _ | e <;> rfl
    rw [htable]
    exact hs.named

/-- From the lookup of the row on, with the lock around the fetch. -/
theorem ends_locked (h : Live (Fresh cfg.lorasRoot row.civitaiVersionId) row.id w) :
    Co.Ends (exec env) (fun _ => Over cfg.lorasRoot row.civitaiVersionId row.id)
      (Over cfg.lorasRoot row.civitaiVersionId row.id) (do
        ask (.acquire row.civitaiVersionId)
        tryCatch (guarded cfg row) fun e => do
          ask (.release row.civitaiVersionId)
          throw e
        ask (.release row.civitaiVersionId)) w := by
  have hrelease : ∀ w, Over cfg.lorasRoot row.civitaiVersionId row.id w →
      (ask (.release row.civitaiVersionId)).Ends (exec env)
        (fun _ => Over cfg.lorasRoot row.civitaiVersionId row.id)
        (Over cfg.lorasRoot row.civitaiVersionId row.id) w := by
    intro w₁ h₁
    have hover := over_release hothers row.civitaiVersionId h₁
    exact ends_ask _ (fun _ _ => hover) fun _ _ => hover
  have hfresh : ∀ w w', Fresh cfg.lorasRoot row.civitaiVersionId w →
      Keeps cfg.lorasRoot (sanitizeSlug "") row.civitaiVersionId w w' →
      Fresh cfg.lorasRoot row.civitaiVersionId w' := fun _ _ => Fresh.keeps
  refine Co.ends_bind ((ends_quiet hothers (wellNamed "" _) hfresh
    (.acquire row.civitaiVersionId) trivial trivial h).mono (fun _ _ hl => hl)
    fun _ hn => Or.inl hn) fun _ w₁ h₁ => ?_
  refine Co.ends_bind (Co.ends_tryCatch (ends_guarded hothers h₁) fun e w₂ h₂ => ?_)
    fun _ w₃ h₃ => hrelease w₃ h₃
  exact Co.ends_bind (hrelease w₂ (Or.inl h₂)) fun _ w₃ h₃ => Co.ends_throw h₃

end Steps

end Program

theorem runFetch_over {cfg : Config} {env : Nat → Input} {version : Int} {id : String}
    (hothers : ∀ n t, Respects cfg.lorasRoot version t ((env n).others t)) {w : World}
    (hversion : ∀ r ∈ w.table, r.id = id → r.civitaiVersionId = version)
    (h : Live (Fresh cfg.lorasRoot version) id w) :
    Over cfg.lorasRoot version id ((runFetch cfg id).run (exec env) w).2 := by
  have hquiet : Quiet cfg.lorasRoot (sanitizeSlug "") version (.getById id) := trivial
  have hu : Unfinished (.getById id) := trivial
  have hfresh : Live (Fresh cfg.lorasRoot version) id (exec env (.getById id) w).2 :=
    ⟨h.1.keeps (keeps_exec hothers hquiet w (wellNamed "" version)), notDone_exec env hu h.2⟩
  have hends : (runFetch cfg id).Ends (exec env) (fun _ => Over cfg.lorasRoot version id)
      (Over cfg.lorasRoot version id) w := by
    unfold runFetch
    have hask : (ask (.getById id)).Ends (exec env)
        (fun found w' => found = w.table.getById id ∧ Live (Fresh cfg.lorasRoot version) id w')
        (Over cfg.lorasRoot version id) w := by
      apply ends_ask (.getById id)
      · intro found hok
        refine ⟨?_, hfresh⟩
        rw [exec_ok hok] at hok
        exact (Except.ok.inj hok).symm
      · exact fun _ _ => Or.inl hfresh.2
    refine Co.ends_bind hask fun found w₁ h₁ => ?_
    cases found with
    | none => exact Co.ends_pure (Or.inl h₁.2.2)
    | some row =>
      obtain ⟨hmem, hid⟩ := mem_of_find h₁.1.symm
      have hv := hversion row hmem hid
      subst hid hv
      exact ends_locked hothers h₁.2
  exact hends.either fun _ _ ho => ho

/-! ## The use of the file -/

theorem length_le_byteLength (name : String) : name.length ≤ byteLength name := by
  have hchars : ∀ l : List Char, l.length ≤ (l.map Char.utf8Size).sum := by
    intro l
    induction l with
    | nil => exact Nat.le_refl 0
    | cons c rest ih =>
      have hsize := Char.utf8Size_pos c
      rw [List.length_cons, List.map_cons, List.sum_cons]
      omega
  rw [← String.length_toList]
  exact hchars name.toList

section Use

variable {root : Path} {filename : String} {version : Int} {w : World}

theorem canonicalName_length (h : ¬ TooLong (destPath root (sanitizeSlug filename) version)) :
    (canonicalName (sanitizeSlug filename) version).length ≤ 256 := by
  have hshort : byteLength (stem (sanitizeSlug filename) version ++ ".safetensors") ≤ 255 := by
    simpa [TooLong, destPath] using h
  have hlength := length_le_byteLength (stem (sanitizeSlug filename) version ++ ".safetensors")
  have hsuffix : (".safetensors" : String).length = 12 := by decide
  have hdir : ("civitai/" : String).length = 8 := by decide
  rw [String.length_append] at hlength
  rw [canonicalName, String.length_append]
  omega

theorem root_real (h : InPlace root (sanitizeSlug filename) version w) :
    w.tree.locate root = some root ∧ w.tree.realpath root = some root ∧
      w.tree.isDir root = true := by
  have hnode : w.tree.node? (root ++ ["civitai"]) ≠ none := by
    intro hnone
    have hdir := h.dir
    unfold FileTree.isDirAt civitaiDir at hdir
    rw [hnone] at hdir
    cases hdir
  have hdir := w.tree.isDirAt_of_append (by simp) hnode
  have hlocate : w.tree.locate root = some root := FileTree.walk_dir true _ hdir
  refine ⟨hlocate, FileTree.walk_dir false _ hdir, ?_⟩
  unfold FileTree.isDir FileTree.stat
  rw [hlocate]
  exact hdir

/-- The name resolves to the file that the fetch has put in place. -/
theorem resolves (h : InPlace root (sanitizeSlug filename) version w) :
    resolveName w.tree root "lora" (canonicalName (sanitizeSlug filename) version) =
      .ok (destPath root (sanitizeSlug filename) version) := by
  obtain ⟨c, hc, -⟩ := h.file
  have hpath : root ++ components (canonicalName (sanitizeSlug filename) version ++
      ".safetensors") = destPath root (sanitizeSlug filename) version := by
    rw [components_canonicalName]
    rfl
  rw [← hpath] at hc ⊢
  refine resolveName_real (root_real h).2.1 ?_ hc
  rw [String.toList_append, canonicalName_toList]
  simp

theorem spec_accepted (h : InPlace root (sanitizeSlug filename) version w) (v : Validator)
    {weight : Json} {x : PyFloat} (hx : v.float weight = some x) :
    ∃ spec, LoraSpec.ofJson v (.obj
        [("name", .str (canonicalName (sanitizeSlug filename) version)), ("weight", weight)]) =
          some spec ∧
      resolveLorasForJob w.tree root [spec] =
        .ok [⟨canonicalName (sanitizeSlug filename) version, x⟩] := by
  have hlength := canonicalName_length h.short
  have hresolves := resolves h
  generalize hname : canonicalName (sanitizeSlug filename) version = name at *
  have hpattern := canonicalName_pattern hname
  refine ⟨⟨name, x, hpattern, hlength⟩, ?_, ?_⟩
  · simp [LoraSpec.ofJson, List.lookup_cons, hx, hpattern, hlength]
  · simp only [resolveLorasForJob, List.mapM_cons, List.mapM_nil, hresolves]
    rfl

theorem mem_rglob (h : InPlace root (sanitizeSlug filename) version w) :
    destPath root (sanitizeSlug filename) version ∈ eviction.rglobSafetensors w.tree root := by
  obtain ⟨c, hc, -⟩ := h.file
  unfold eviction.rglobSafetensors
  rw [(root_real h).1]
  have hne : destPath root (sanitizeSlug filename) version ≠ [] := by simp [destPath]
  unfold FileTree.node? nodeAt at hc
  rw [if_neg hne] at hc
  refine List.mem_filterMap.mpr ⟨_, mem_of_lookup hc, ?_⟩
  simp [destPath, List.suffix_append]

theorem asPosix_pair (a b : String) : asPosix [a, b] = a ++ "/" ++ b := rfl

theorem scan_finds (h : InPlace root (sanitizeSlug filename) version w)
    (hdecodable : Decodable w.tree root) :
    ∃ metas, scanLoras w.tree root = .ok metas ∧ ∃ m ∈ metas,
      m.name = canonicalName (sanitizeSlug filename) version ∧
      m.filename = canonicalName (sanitizeSlug filename) version ++ ".safetensors" ∧
      m.addressable = true := by
  obtain ⟨c, hc, -⟩ := h.file
  have hread : w.tree.read (destPath root (sanitizeSlug filename) version) = some c := by
    simp [FileTree.read, FileTree.stat, w.tree.locate_file hc, hc]
  obtain ⟨metas, hmetas, m, hm, hfile, hname, hreason, haddr⟩ :=
    scan_lists (root_real h).2.1 (root_real h).2.2 hdecodable (mem_rglob h) hread
      (w.tree.realpath_file hc) (List.prefix_append _ _)
  have hrelative : (destPath root (sanitizeSlug filename) version).drop root.length =
      ["civitai", stem (sanitizeSlug filename) version ++ ".safetensors"] := by
    simp [destPath]
  rw [hrelative] at hfile hname
  have hname : m.name = canonicalName (sanitizeSlug filename) version := by
    rw [hname]
    have hsplit := pathWithSuffix_append ["civitai"]
      (stem (sanitizeSlug filename) version ++ ".safetensors") ""
    rw [List.singleton_append] at hsplit
    rw [hsplit, (withSuffix_stem _ _ _).1, List.singleton_append, asPosix_pair, canonicalName]
    simp
  refine ⟨metas, hmetas, m, hm, hname, ?_, ?_⟩
  · rw [hfile, asPosix_pair, canonicalName]
    apply String.toList_injective
    simp
  · rw [haddr, hreason, unaddressableReason_none (canonicalName_pattern hname.symm)]
    rfl

end Use

/-! ## The claims of a done fetch -/

/-- What a request and the list make of a fetched file. -/
structure Usable (root : Path) (filename : String) (version : Int) (w : World) : Prop where
  /-- The file of the path is the one that the download has saved. -/
  saved : ∃ c, w.tree.read (destPath root (sanitizeSlug filename) version) = some c ∧
    (w.saved = none ∨ w.saved = some c)
  accepted : ∀ (v : Validator) (weight : Json) (x : PyFloat), v.float weight = some x →
    ∃ spec, LoraSpec.ofJson v (.obj
        [("name", .str (canonicalName (sanitizeSlug filename) version)), ("weight", weight)]) =
          some spec ∧
      resolveLorasForJob w.tree root [spec] =
        .ok [⟨canonicalName (sanitizeSlug filename) version, x⟩]
  resolved : resolveName w.tree root "lora" (canonicalName (sanitizeSlug filename) version) =
    .ok (destPath root (sanitizeSlug filename) version)
  listed : Decodable w.tree root → ∃ metas, scanLoras w.tree root = .ok metas ∧
    ∃ m ∈ metas, m.name = canonicalName (sanitizeSlug filename) version ∧
      m.filename = canonicalName (sanitizeSlug filename) version ++ ".safetensors" ∧
      m.addressable = true

theorem usable_of_inPlace {root : Path} {filename : String} {version : Int} {w : World}
    (h : InPlace root (sanitizeSlug filename) version w) : Usable root filename version w where
  saved := by
    obtain ⟨c, hc, hsaved⟩ := h.file
    refine ⟨c, ?_, hsaved⟩
    simp [FileTree.read, FileTree.stat, w.tree.locate_file hc, hc]
  accepted v _ _ hx := spec_accepted h v hx
  resolved := resolves h
  listed hdecodable := scan_finds h hdecodable

/-- The files of a version stand directly in `civitai`, no two versions share
one, and a fetch that gets to `done` with no link in its way leaves the row the
name of a file that requests resolve and the list gives. -/
theorem a_fetched_lora_is_usable :
    (∀ (root : Path) (filename : String) (version : Int),
      joinPath (joinPath root "civitai")
          (stem (sanitizeSlug filename) version ++ ".safetensors") =
        destPath root (sanitizeSlug filename) version ∧
      (fetchPaths root (sanitizeSlug filename) version).Nodup ∧
      ∀ p ∈ fetchPaths root (sanitizeSlug filename) version,
        p.dropLast = root ++ ["civitai"] ∧ ∀ name ∈ p.getLast?, Component name) ∧
    (∀ (root : Path) (filename filename' : String) (version version' : Int),
      (sanitizeSlug filename, version) ≠ (sanitizeSlug filename', version') →
      (fetchPaths root (sanitizeSlug filename) version).Disjoint
        (fetchPaths root (sanitizeSlug filename') version')) ∧
    ∀ (cfg : Config) (env : Nat → Input) (version : Int) (id : String) (w : World),
      (∀ n t, Respects cfg.lorasRoot version t ((env n).others t)) →
      (∀ r ∈ w.table, r.id = id → r.civitaiVersionId = version ∧ r.status ≠ .done) →
      Tidy cfg.lorasRoot version w.tree → w.saved = none →
      let done := ((runFetch cfg id).run (exec env) w).2
      ∀ r ∈ done.table, r.id = id → r.status = .done →
        ∃ file : PrimaryFile, r.destName = some (canonicalName (sanitizeSlug file.name) version) ∧
          Usable cfg.lorasRoot file.name version done := by
  refine ⟨fun root filename version => ?_, fun root _ _ _ _ h => fetchPaths_disjoint root h, ?_⟩
  · refine ⟨joinPath_dest root filename version, fetchPaths_nodup root _ version, ?_⟩
    intro p hp
    rw [fetchPaths_eq] at hp
    obtain ⟨x, hx, rfl⟩ := List.mem_map.mp hp
    refine ⟨dropLast_civitai _, fun name hname => ?_⟩
    simp only [filePath, List.getLast?_append, List.getLast?_singleton, Option.some_or,
      Option.mem_some_iff] at hname
    rw [← hname]
    exact component_stem filename version x hx
  · intro cfg env version id w hothers hrow htidy hsaved done r hr hid hdone
    have hlive : Live (Fresh cfg.lorasRoot version) id w :=
      ⟨⟨htidy, hsaved⟩, fun r hr hid => (hrow r hr hid).2⟩
    rcases runFetch_over hothers (fun r hr hid => (hrow r hr hid).1) hlive with hnot | ⟨file, hs⟩
    · exact absurd hdone (hnot r hr hid)
    · exact ⟨file, hs.named r hr hid, usable_of_inPlace hs.toInPlace⟩

/-! ## Runs -/

def someMetadata : List (String × Json) :=
  [("files", .arr [.obj [("name", .str "a.safetensors"), ("primary", .bool true),
    ("downloadUrl", .str "https://civitai.com/a"), ("hashes", .obj [("SHA256", .str "AB")])]])]

def someFile : Contents := ⟨3, .malformed ""⟩

/-- Nothing goes wrong, and `others` is what the others do. -/
def calm (others : Nat → LoraTree → LoraTree) (n : Nat) : Input where
  now := 1
  fault := none
  others := others n
  stream := .ok (someFile, .ok "ab")
  written := 3
  fetchedAt := ""
  sidecarSize := 9
  answer
    | .fetchMetadata _ => .ok someMetadata
    | .expectedSize _ => .ok 3
    | .diskFree => .ok 100
    | .acquire _ => .ok ()
    | .release _ => .ok ()
    | .validateDownloadUrl _ => .ok ()
    | _ => .error (.other "")

def pendingRow : LoraFetch := Table.newRow "f" "" none 7 0

def emptyRoot : LoraTree where
  entries := [(["loras"], .dir)]
  nodup := by decide
  components := by decide
  parents := by decide

def fetched (t : LoraTree) (others : Nat → LoraTree → LoraTree) : World :=
  ((runFetch ⟨["loras"], 10, "3600", fun _ => ""⟩ "f").run (exec (calm others))
    ⟨t, [pendingRow], 0, none⟩).2

def outcome (w : World) : List (FetchStatus × Option String) :=
  w.table.map fun r => (r.status, r.destName)

theorem tidy_emptyRoot : Tidy ["loras"] 7 emptyRoot where
  component := by decide
  noLink p _ absolute target hlink := by
    unfold FileTree.node? nodeAt at hlink
    split at hlink
    · cases hlink
    · have hmem := mem_of_lookup hlink
      rw [emptyRoot, List.mem_singleton] at hmem
      cases hmem

theorem a_fetched_lora_is_usable_downloaded :
    outcome (fetched emptyRoot fun _ t => t) = [(.done, some "civitai/a_7")] ∧
      ∃ path, resolveName (fetched emptyRoot fun _ t => t).tree ["loras"] "lora" "civitai/a_7" =
        .ok path := by
  have hdone : outcome (fetched emptyRoot fun _ t => t) = [(.done, some "civitai/a_7")] := by
    decide +kernel
  refine ⟨hdone, ?_⟩
  have hids : (fetched emptyRoot fun _ t => t).table.map (·.id) = ["f"] := by
    decide +kernel
  have hothers : ∀ n t, Respects ["loras"] 7 t ((calm (fun _ t => t) n).others t) :=
    fun _ _ => ⟨fun h => h, fun h => h, fun _ _ _ => rfl⟩
  have hrow : ∀ r ∈ [pendingRow], r.id = "f" → r.civitaiVersionId = 7 ∧ r.status ≠ .done := by
    decide
  obtain ⟨r, hr⟩ := List.length_eq_one_iff.mp ((List.length_map _).symm.trans
    (congrArg List.length hdone))
  have hmem : r ∈ (fetched emptyRoot fun _ t => t).table := by
    rw [hr]
    exact List.mem_singleton_self r
  unfold outcome at hdone
  rw [hr, List.map_singleton, List.cons.injEq] at hdone hids
  obtain ⟨hstatus, hname⟩ := Prod.mk.inj hdone.1
  obtain ⟨file, hdest, husable⟩ := a_fetched_lora_is_usable.2.2
    ⟨["loras"], 10, "3600", fun _ => ""⟩ (calm fun _ t => t) 7 "f"
    ⟨emptyRoot, [pendingRow], 0, none⟩ hothers hrow tidy_emptyRoot rfl r hmem hids.1 hstatus
  rw [hname, Option.some.injEq] at hdest
  rw [hdest]
  exact ⟨_, husable.resolved⟩

/-- `civitai` is a link that leads out of the root. -/
def linkedRoot : LoraTree where
  entries := [(["loras"], .dir), (["loras", "civitai"], .link true ["out"]), (["out"], .dir)]
  nodup := by decide
  components := by decide
  parents := by decide

/-- The sidecar of another file is no UTF-8. -/
def unreadableRoot : LoraTree where
  entries := [(["loras"], .dir), (["loras", "b.safetensors"], .file someFile),
    (["loras", "b.json"], .file ⟨4, .unreadable "UnicodeDecodeError"⟩)]
  nodup := by decide
  components := by decide
  parents := by decide

/-- The file goes before the row is done, as an eviction for another fetch can have it. -/
def evicted (n : Nat) (t : LoraTree) : LoraTree :=
  if n = 15 then (t.unlink ["loras", "civitai", "a_7.safetensors"]).getD t else t

def resolved (w : World) : Bool :=
  (resolveName w.tree ["loras"] "lora" "civitai/a_7").isOk

theorem unreadable_scan :
    ∀ metas, scanLoras (fetched unreadableRoot fun _ t => t).tree ["loras"] ≠ .ok metas := by
  have hroot : (fetched unreadableRoot fun _ t => t).tree.realpath ["loras"] = some ["loras"] := by
    decide +kernel
  have hpath : ["loras", "b.safetensors"] ∈
      eviction.rglobSafetensors (fetched unreadableRoot fun _ t => t).tree ["loras"] := by
    decide +kernel
  exact scan_fails hroot (by decide +kernel) hpath (by decide +kernel)

/-- With a link in the way, without the file, or next to a sidecar that cannot be
read, a done fetch is of no use. -/
theorem a_done_fetch_can_be_unusable :
    (outcome (fetched linkedRoot fun _ t => t) = [(.done, some "civitai/a_7")] ∧
      resolved (fetched linkedRoot fun _ t => t) = false) ∧
    (outcome (fetched emptyRoot evicted) = [(.done, some "civitai/a_7")] ∧
      resolved (fetched emptyRoot evicted) = false) ∧
    (outcome (fetched unreadableRoot fun _ t => t) = [(.done, some "civitai/a_7")] ∧
      ∀ metas, scanLoras (fetched unreadableRoot fun _ t => t).tree ["loras"] ≠ .ok metas) := by
  refine ⟨⟨?_, ?_⟩, ⟨?_, ?_⟩, ?_, unreadable_scan⟩ <;> decide +kernel

end image_gen.fetched_loras

-- The storage gate of a fetch (step 5 of `_fetch`): when it lets a download
-- begin, against the two limits that it is there for.
import ImageGen.EvictFor
import ImageGen.FetchDedupe

namespace image_gen.storage_gate

open image_gen.coroutine image_gen.json image_gen.file_tree image_gen.lora_files
  image_gen.fetch_table image_gen.civitai_fetch image_gen.eviction image_gen.evict_for
  image_gen.sorted_prefix

/-! ## The operations at the gate -/

structure World where
  tree : LoraTree
  table : Table

structure Input where
  /-- Its `incomingSize` is that of the call. -/
  setting : Setting
  surroundings : Surroundings
  /-- `shutil.disk_usage(loras_root).free` over each tree. -/
  free : LoraTree → Nat
  now : Nat
  answer : (op : Op) → Except Exc op.Ans

/-- The settings of one call of `evict_for`. -/
def Input.evicting (inp : Input) (size : Int) : Setting :=
  { inp.setting with incomingSize := size }

def outcome : Pc → Except Exc Unit
  | .insufficientStorage message => .error (.insufficientStorage message)
  | .raised message => .error (.other message)
  | _ => .ok ()

def exec (inp : Input) : (op : Op) → World → Except Exc op.Ans × World
  | .diskFree, w => (.ok (inp.free w.tree), w)
  | .evictFor size, w =>
    let call := evictFor (inp.evicting size) w.tree inp.surroundings
    (outcome call.pc, { w with tree := call.tree })
  | op, w =>
    let r := fetch_dedupe.execFetch ⟨inp.now, none, 0, inp.answer⟩ op w.table
    (r.1, { w with table := r.2 })

/-! ## What it is for -/

variable {inp : Input} {row : LoraFetch} {size : Int} {w : World}

/-- The disk has room for the file twice over, and the directory for the file. -/
structure Room (inp : Input) (size : Int) (w : World) : Prop where
  disk : size * 2 ≤ inp.free w.tree
  directory : directorySize w.tree inp.setting.civitaiRoot + size ≤ inp.setting.dirMaxBytes

/-- The gate lets the rest of the fetch, its download, begin only where there is
room, and otherwise the row fails with `insufficient_storage` and nothing of the
rest is done. -/
def Gated (inp : Input) (row : LoraFetch) (size : Int) (w : World) : Prop :=
  ∀ rest : Prog Unit,
    (∃ tree, (makeRoom row size rest).run (exec inp) w =
        rest.run (exec inp) { w with tree := tree } ∧ Room inp size { w with tree := tree }) ∨
    ∃ message tree, (makeRoom row size rest).run (exec inp) w =
      (setFailed row ("insufficient_storage", message)).run (exec inp) { w with tree := tree }

/-! ## What it does -/

/-- The settings of the call at the gate. -/
def Input.call (inp : Input) (size : Int) : Setting := inp.evicting (size * 2)

theorem run_makeRoom (rest : Prog Unit) :
    (makeRoom row size rest).run (exec inp) w =
      if (inp.free w.tree : Int) < size * 2 then
        match evictFor (inp.call size) w.tree inp.surroundings with
        | ⟨tree, _, .insufficientStorage message⟩ =>
          (setFailed row ("insufficient_storage", message)).run (exec inp) { w with tree := tree }
        | ⟨tree, _, .raised message⟩ => (.error (.other message), { w with tree := tree })
        | ⟨tree, _, _⟩ => rest.run (exec inp) { w with tree := tree }
      else rest.run (exec inp) w := by
  have hfree : (ask .diskFree).run (exec inp) w = (.ok (inp.free w.tree : Int), w) :=
    Co.run_call ..
  have hevict : (ask (.evictFor (size * 2))).run (exec inp) w =
      (outcome (evictFor (inp.call size) w.tree inp.surroundings).pc,
        { w with tree := (evictFor (inp.call size) w.tree inp.surroundings).tree }) :=
    Co.run_call ..
  unfold makeRoom
  rw [Co.run_bind_ok _ hfree]
  split
  · rw [Co.run_bind, attempt, Co.run_tryCatch, Co.run_map, hevict]
    rcases evictFor (inp.call size) w.tree inp.surroundings with ⟨tree, turns, pc⟩
    cases pc <;> rfl
  · rfl

/-- With the disk short, the gate is right to let the fetch go on only after an
eviction that leaves the disk with the room. -/
def ClearsDisk (inp : Input) (size : Int) (t : LoraTree) : Prop :=
  0 < required (inp.call size) t ∧
    (¬ t.isDir inp.setting.civitaiRoot = true ∨
      (Selects (inp.call size) t inp.surroundings.now ∧
        (gained (gain (inp.call size) t inp.surroundings)
            (line (inp.call size) t inp.surroundings.protectedByJobs inp.surroundings.now) <
            required (inp.call size) t ∨
          size * 2 ≤ inp.free (left (inp.call size) t inp.surroundings))))

/-- The gate lets the rest of the fetch go on, with this tree. -/
def Proceeds (inp : Input) (row : LoraFetch) (size : Int) (w : World) (tree : LoraTree) : Prop :=
  ∀ rest : Prog Unit, (makeRoom row size rest).run (exec inp) w =
    rest.run (exec inp) { w with tree := tree }

theorem run_setFailed (f : Failure) (e : Exc) (he : ∀ te, e ≠ .table te) :
    ((setFailed row f).run (exec inp) w).1 ≠ .error e := by
  have hrun : (setFailed row f).run (exec inp) w =
      exec inp (.setFailed row.id f.1 f.2 false) w := Co.run_call ..
  rw [hrun]
  simp only [exec, fetch_dedupe.execFetch, fetch_dedupe.tableWrite]
  split
  · exact nofun
  · intro heq
    cases heq
    exact he _ rfl

/-- Where the gate lets the fetch go on, there has to be room. -/
theorem gated_of_proceeds {tree : LoraTree} (h : Proceeds inp row size w tree) :
    Gated inp row size w ↔ Room inp size { w with tree := tree } := by
  constructor
  · intro hgated
    rcases hgated (throw (.value "proceeds")) with ⟨v, hrun, hroom⟩ | ⟨message, v, hrun⟩
    · rw [h, Co.run_throw, Co.run_throw, Prod.mk.injEq] at hrun
      exact hrun.2 ▸ hroom
    · rw [h, Co.run_throw] at hrun
      have hne : ((setFailed row ("insufficient_storage", message)).run (exec inp)
          { w with tree := v }).1 ≠ .error (.value "proceeds") := run_setFailed _ _ nofun
      rw [← hrun] at hne
      exact absurd rfl hne
  · intro hroom rest
    exact .inl ⟨tree, h rest, hroom⟩

/-- Any other exception is neither. -/
theorem not_gated_of_raised {w' : World} {message : String}
    (h : ∀ rest : Prog Unit, (makeRoom row size rest).run (exec inp) w =
      (.error (.other message), w')) : ¬ Gated inp row size w := by
  intro hgated
  rcases hgated (throw (.value "proceeds")) with ⟨v, hrun, -⟩ | ⟨text, v, hrun⟩
  · rw [h, Co.run_throw] at hrun
    cases hrun
  · rw [h] at hrun
    have hne : ((setFailed row ("insufficient_storage", text)).run (exec inp)
        { w with tree := v }).1 ≠ .error (.other message) := run_setFailed _ _ nofun
    rw [← hrun] at hne
    exact absurd rfl hne

/-- With the disk ample, the directory is not looked at. -/
theorem gated_ample (h : size * 2 ≤ inp.free w.tree) :
    Gated inp row size w ↔
      directorySize w.tree inp.setting.civitaiRoot + size ≤ inp.setting.dirMaxBytes := by
  have hproceeds : Proceeds inp row size w w.tree := by
    intro rest
    rw [run_makeRoom, if_neg (by omega)]
  rw [gated_of_proceeds hproceeds]
  exact ⟨fun hroom => hroom.directory, fun hdir => ⟨h, hdir⟩⟩

theorem gated_short (h : (inp.free w.tree : Int) < size * 2) :
    Gated inp row size w ↔ ClearsDisk inp size w.tree := by
  -- how the gate goes on after each end of the eviction
  have hinsufficient : ∀ {tree turns message},
      evictFor (inp.call size) w.tree inp.surroundings =
        ⟨tree, turns, .insufficientStorage message⟩ → Gated inp row size w := by
    intro tree turns message hcall rest
    refine .inr ⟨message, tree, ?_⟩
    rw [run_makeRoom, if_pos h, hcall]
  have hraised : ∀ {tree turns message},
      evictFor (inp.call size) w.tree inp.surroundings = ⟨tree, turns, .raised message⟩ →
        ¬ Gated inp row size w := by
    intro tree turns message hcall
    apply not_gated_of_raised
    intro rest
    rw [run_makeRoom, if_pos h, hcall]
  have hreturned : ∀ {tree turns reclaimed},
      evictFor (inp.call size) w.tree inp.surroundings = ⟨tree, turns, .returned reclaimed⟩ →
        (Gated inp row size w ↔ Room inp size { w with tree := tree }) := by
    intro tree turns reclaimed hcall
    apply gated_of_proceeds
    intro rest
    rw [run_makeRoom, if_pos h, hcall]
  by_cases hreq : required (inp.call size) w.tree ≤ 0
  · have hcall : evictFor (inp.call size) w.tree inp.surroundings = ⟨w.tree, [], .returned 0⟩ := by
      rw [evictFor, start_idle hreq]
    rw [hreturned hcall]
    constructor
    · intro hroom
      have hdisk := hroom.disk
      dsimp only at hdisk
      omega
    · intro hclears
      have hpos := hclears.1
      omega
  rw [not_le] at hreq
  by_cases hdir : w.tree.isDir inp.setting.civitaiRoot = true
  on_goal 2 =>
    obtain ⟨message, hstart⟩ := start_empty hreq hdir
    have hcall : evictFor (inp.call size) w.tree inp.surroundings =
        ⟨w.tree, [], .insufficientStorage message⟩ := by rw [evictFor, hstart]
    exact iff_of_true (hinsufficient hcall) ⟨hreq, .inl hdir⟩
  rcases hselect : (inp.call size).select w.tree inp.surroundings.protectedByJobs
      inp.surroundings.now with message | candidates
  · have hcall : evictFor (inp.call size) w.tree inp.surroundings =
        ⟨w.tree, [], .raised message⟩ := by
      rw [evictFor, start_asking hreq hdir]
      dsimp only
      rw [hselect]
    refine iff_of_false (hraised hcall) ?_
    rintro ⟨-, hno | ⟨⟨⟨cutoff, hcut⟩, hdec⟩, -⟩⟩
    · exact hno hdir
    · rw [select_ok hcut hdec] at hselect
      cases hselect
  · have hselects : Selects (inp.call size) w.tree inp.surroundings.now := of_select_ok hselect
    obtain ⟨⟨cutoff, hcut⟩, hdec⟩ := hselects
    obtain ⟨⟨total, hcall⟩, hclear⟩ := evictFor_eq (a := inp.surroundings) hreq hdir hcut hdec
    by_cases hall : gained (gain (inp.call size) w.tree inp.surroundings)
        (line (inp.call size) w.tree inp.surroundings.protectedByJobs inp.surroundings.now) <
          required (inp.call size) w.tree
    · rw [turned_all hall, loop, if_pos hall] at hcall
      exact iff_of_true (hinsufficient hcall) ⟨hreq, .inr ⟨⟨⟨cutoff, hcut⟩, hdec⟩, .inl hall⟩⟩
    · have henough := turned_enough.mpr (not_lt.mp hall)
      rw [loop, if_neg (not_lt.mpr henough)] at hcall
      rw [hreturned hcall]
      have hcivitai : w.tree.isDir (inp.call size).civitaiRoot = true := hdir
      have hroom := room_left hcivitai hclear henough
      constructor
      · intro hdisk
        exact ⟨hreq, .inr ⟨⟨⟨cutoff, hcut⟩, hdec⟩, .inr hdisk.disk⟩⟩
      · rintro ⟨-, hno | ⟨-, hless | hdisk⟩⟩
        · exact absurd hdir hno
        · exact absurd hless hall
        · refine ⟨hdisk, ?_⟩
          change directorySize (left (inp.call size) w.tree inp.surroundings)
            inp.setting.civitaiRoot + size * 2 ≤ inp.setting.dirMaxBytes at hroom
          dsimp only
          omega

theorem the_gate_holds_iff (inp : Input) (row : LoraFetch) (size : Int) (w : World) :
    Gated inp row size w ↔
      (size * 2 ≤ inp.free w.tree ∧
        directorySize w.tree inp.setting.civitaiRoot + size ≤ inp.setting.dirMaxBytes) ∨
      ((inp.free w.tree : Int) < size * 2 ∧ ClearsDisk inp size w.tree) := by
  by_cases hfree : size * 2 ≤ inp.free w.tree
  · rw [gated_ample hfree]
    simp [hfree]
  · rw [gated_short (by omega)]
    simp [hfree, Int.not_le.mp hfree]

/-- A fetch of one LoRA, with free bytes that nothing changes. -/
def fetchWith (free : Nat) (dirMaxBytes : Int) : Input where
  setting := { firstDaySetting with dirMaxBytes := dirMaxBytes }
  surroundings := ⟨[], 10 * dayMicros, fun _ => [], fun _ => []⟩
  free _ := free
  now := 0
  answer _ := .error .timeout

def fetchRow : LoraFetch := Table.newRow "a" "u" none 7 0

/-- A full directory does not stop a fetch while the disk is ample, and a short
disk does not while the directory is roomy. -/
theorem a_full_directory_lets_a_fetch_go_on :
    ¬ Gated (fetchWith 10000 600) fetchRow 400 ⟨firstDay, []⟩ ∧
      ¬ Gated (fetchWith 100 10000) fetchRow 400 ⟨firstDay, []⟩ := by
  have hsize : directorySize firstDay firstDaySetting.civitaiRoot = 1000 := by decide +kernel
  constructor
  · rw [gated_ample (by decide)]
    change ¬ (directorySize firstDay firstDaySetting.civitaiRoot + 400 : Int) ≤ 600
    rw [hsize]
    omega
  · rw [gated_short (by decide)]
    rintro ⟨hpos, -⟩
    change 0 < (800 : Int) - (10000 - directorySize firstDay firstDaySetting.civitaiRoot) at hpos
    rw [hsize] at hpos
    omega

end image_gen.storage_gate

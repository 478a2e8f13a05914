-- A bundle batch that is interrupted and run again with `--resume`. The resume
-- test looks at the PNG alone, so an interruption is harmless where the PNG, the
-- sidecar and the manifest line of an item are all there or none of them is.
import ImageGen.BundlePaths
import ImageGen.BundleRun

namespace image_gen.bundle_resume

open image_gen.bundle_batch image_gen.bundle_paths image_gen.bundle_run image_gen.file_tree
  image_gen.graph image_gen.json image_gen.py_dict image_gen.runs image_gen.torn_writes
open image_gen.lora_files (joinPath)
open image_gen.requests (Bytes)

variable (w : World)

/-! ## The same outputs -/

/-- A record without `generated_at` and `job_id`. -/
def stable (record : Fields) : Fields :=
  restrict (fun key => key ≠ "generated_at" && key ≠ "job_id") record

/-- The manifest with these records. There is no file before the first one. -/
def manifestOf (records : List Fields) : Option Bytes :=
  if records = [] then none else some (records.flatMap w.manifestLine)

/-- The same PNGs, the same sidecars and the same records, and nothing else has
changed. -/
structure Same (files files' : Files Path UInt8) : Prop where
  others : ∀ p, p ≠ manifestPath w.settings → (∀ i ∈ w.plan.items, p ≠ sidecar w.settings i) →
    files p = files' p
  sidecars : ∀ i ∈ w.plan.items, ∃ r r', files (sidecar w.settings i) = some (w.sidecarText r) ∧
    files' (sidecar w.settings i) = some (w.sidecarText r') ∧ stable r = stable r'
  manifest : ∃ records records', files (manifestPath w.settings) = manifestOf w records ∧
    files' (manifestPath w.settings) = manifestOf w records' ∧
    (records.map stable).Perm (records'.map stable)

/-! ## Where a run may be interrupted -/

/-- Nothing of the PNG is there, or the whole line of the manifest is. -/
def Harmless (op : Op Path UInt8) (ops : List (Op Path UInt8)) (progress : Option Nat) : Prop :=
  ops.length = 2 ∧ (progress = none ∨ progress = some 0) ∨
    ops = [] ∧ ∃ n, progress = some n ∧ op.content.length ≤ n

/-- A step that keeps an item's files together. A PNG has bytes, and a request
is refused for its fields where the service permits them not. -/
def Allowed (s : State) : Label → Prop
  | .kill progress =>
    match s.pc with
    | .opening false => s.files (manifestPath w.settings) = none
    | .writing _ _ op ops => Harmless op ops progress
    | _ => True
  | .fault progress =>
    match s.pc with
    | .writing _ _ op ops => Harmless op ops progress
    | _ => True
  | .reply (.served _ _) =>
    match s.pc with
    | .posting _ i retry => w.answer (payloadOf w i retry) ≠ some []
    | _ => True
  | .reply (.httpError status body) =>
    match s.pc with
    | .posting _ i false =>
      shouldRetry w.lib status body = true → w.answer (payload w.settings i) = none
    | _ => True
  | _ => True

/-- Every run but the first is with `--resume`. -/
def Resumes : Label → Prop
  | .start resume => resume = true
  | _ => True

/-- No run ends before it is through, and none starts. -/
def Uninterrupted : Label → Prop
  | .start _ | .kill _ | .fault _ => False
  | _ => True

/-! ## What an item comes to -/

/-- The PNG of an item, and which of the requests it comes from. -/
def outcome (i : Item) : Option (Bytes × Bool) :=
  match w.answer (payload w.settings i) with
  | some png => some (png, false)
  | none => (w.answer (retryPayload w.settings i)).map fun png => (png, true)

/-- An item that is done. -/
structure Entry where
  item : Item
  png : Bytes
  retry : Bool
  jobId : Option String
  generatedAt : String

namespace Entry

variable (e : Entry)

def record : Fields := bundle_batch.record w.settings e.item e.retry e.jobId e.generatedAt

/-- The service has this PNG for the item. -/
def Served : Prop := outcome w e.item = some (e.png, e.retry) ∧ e.png ≠ []

/-- Its files are there. -/
structure Holds (files : Files Path UInt8) : Prop where
  served : e.Served w
  target : files (target w.settings e.item) = some e.png
  sidecar : files (sidecar w.settings e.item) = some (w.sidecarText (e.record w))

end Entry

/-- The resume test does not find it. -/
def Missing (files : Files Path UInt8) (i : Item) : Prop :=
  files (target w.settings i) = none ∨ files (target w.settings i) = some []

/-- What the files are, with these items done and one perhaps under way. -/
structure Settled (files₀ files : Files Path UInt8) (done : List Entry) (busy : Option Item) :
    Prop where
  planned : ∀ e ∈ done, e.item ∈ w.plan.items
  once : (done.map Entry.item).Nodup
  holds : ∀ e ∈ done, e.Holds w files
  missing : ∀ i ∈ w.plan.items, i ∉ done.map Entry.item → busy ≠ some i → Missing w files i
  others : ∀ p, p ≠ manifestPath w.settings → (∀ i ∈ w.plan.items, p ∉ touched w.settings i) →
    files p = files₀ p

/-! ## Separate files -/

theorem manifest_not_touched (s : Settings) (i : Item) : manifestPath s ∉ touched s i := by
  have hmanifest : manifestPath s = s.outRoot ++ ["asset-manifest.ndjson"] := by
    rw [manifestPath, joinPath_name _ (by decide), if_neg (by decide)]
  have hlength {name : String} : manifestPath s ≠ laneDir s i ++ [name] := by
    intro h
    have hcount := congrArg List.length h
    simp only [hmanifest, laneDir, List.length_append, List.length_singleton] at hcount
    omega
  rw [touched, target_eq, sidecar_eq]
  simp [hlength]

theorem existing_iff (s : Settings) (files : Files Path UInt8) (i : Item) :
    existing files s i = true ↔
      ¬ (files (target s i) = none ∨ files (target s i) = some []) := by
  unfold existing
  rcases hfile : files (target s i) with _ | _ | ⟨b, bytes⟩ <;> simp

variable {w} {files₀ files : Files Path UInt8} {done : List Entry} {busy : Option Item} {i : Item}

/-- The files of two items of a plan are separate. -/
theorem untouched (hdistinct : (w.plan.items.map (target w.settings)).Nodup)
    (hi : i ∈ w.plan.items) {j : Item} (hj : j ∈ w.plan.items) (hne : j ≠ i) :
    ∀ p ∈ touched w.settings j, p ∉ touched w.settings i := by
  rw [disjoint_iff]
  intro halike
  exact hne (List.inj_on_of_nodup_map hdistinct hj hi (target_inj.mpr halike))

theorem Entry.Holds.congr {e : Entry} {files' : Files Path UInt8} (h : e.Holds w files)
    (hsame : ∀ p ∈ touched w.settings e.item, files' p = files p) : e.Holds w files' where
  served := h.served
  target := by rw [hsame _ (by simp [touched]), h.target]
  sidecar := by rw [hsame _ (by simp [touched]), h.sidecar]

/-- The resume test finds a done item. -/
theorem Entry.Holds.not_missing {e : Entry} (h : e.Holds w files) : ¬ Missing w files e.item := by
  unfold Missing
  rw [h.target]
  rintro (hnone | hempty)
  · cases hnone
  · exact h.served.2 (Option.some.inj hempty)

namespace Settled

theorem of_free (h : Settled w files₀ files done none) : Settled w files₀ files done (some i) where
  planned := h.planned
  once := h.once
  holds := h.holds
  missing := fun j hj hnot _ => h.missing j hj hnot (by simp)
  others := h.others

/-- A write to a file of the item under way. -/
theorem write (hdistinct : (w.plan.items.map (target w.settings)).Nodup)
    (h : Settled w files₀ files done (some i)) (hi : i ∈ w.plan.items)
    (hnot : i ∉ done.map Entry.item) {files' : Files Path UInt8}
    (hsame : ∀ p, p ∉ touched w.settings i → p ≠ manifestPath w.settings → files' p = files p) :
    Settled w files₀ files' done (some i) := by
  have hother {j : Item} (hj : j ∈ w.plan.items) (hne : j ≠ i) :
      ∀ p ∈ touched w.settings j, files' p = files p := by
    intro p hp
    apply hsame p (untouched hdistinct hi hj hne p hp)
    rintro rfl
    exact manifest_not_touched _ _ hp
  constructor
  · exact h.planned
  · exact h.once
  · intro e he
    have hne : e.item ≠ i := by
      rintro rfl
      exact hnot (List.mem_map_of_mem he)
    exact (h.holds e he).congr (hother (h.planned e he) hne)
  · intro j hj hjnot hbusy
    have hne : j ≠ i := fun heq => hbusy (by rw [heq])
    have hmissing := h.missing j hj hjnot hbusy
    unfold Missing at *
    rw [hother hj hne _ (by simp [touched])]
    exact hmissing
  · intro p hp hfree
    rw [hsame p (hfree i hi) hp]
    exact h.others p hp hfree

/-- The item under way has put nothing where the resume test looks. -/
theorem drop (h : Settled w files₀ files done (some i)) (hmissing : Missing w files i) :
    Settled w files₀ files done none where
  planned := h.planned
  once := h.once
  holds := h.holds
  missing := by
    intro j hj hnot _
    by_cases hne : j = i
    · rw [hne]
      exact hmissing
    · exact h.missing j hj hnot fun heq => hne (Option.some.inj heq).symm
  others := h.others

/-- The item under way is done. -/
theorem close {e : Entry} (h : Settled w files₀ files done (some e.item))
    (hi : e.item ∈ w.plan.items) (hnot : e.item ∉ done.map Entry.item) (he : e.Holds w files) :
    Settled w files₀ files (done ++ [e]) none where
  planned := by
    intro e' he'
    rcases List.mem_append.mp he' with he' | he'
    · exact h.planned e' he'
    · rw [List.mem_singleton.mp he']
      exact hi
  once := by
    rw [List.map_append, List.nodup_append]
    refine ⟨h.once, List.nodup_singleton _, ?_⟩
    intro a ha b hb heq
    rw [List.map_singleton, List.mem_singleton] at hb
    rw [heq, hb] at ha
    exact hnot ha
  holds := by
    intro e' he'
    rcases List.mem_append.mp he' with he' | he'
    · exact h.holds e' he'
    · rw [List.mem_singleton.mp he']
      exact he
  missing := by
    intro j hj hjnot _
    rw [List.map_append, List.mem_append, not_or, List.map_singleton, List.mem_singleton] at hjnot
    exact h.missing j hj hjnot.1 fun heq => hjnot.2 (Option.some.inj heq).symm
  others := h.others

end Settled

/-! ## The invariant -/

section Invariant

variable (w) (files₀ files : Files Path UInt8) (done : List Entry)

def Listed : Prop :=
  files (manifestPath w.settings) = manifestOf w (done.map (Entry.record w))

/-- The items that the loops are past. Without a failure they are done, and a
run without `--resume` has done no others. -/
structure Passed (r : Progress) (before : List Item) : Prop where
  clean : r.failures = 0 → ∀ i ∈ before, i ∈ done.map Entry.item
  fresh : r.resume = false → ∀ e ∈ done, e.item ∈ before

/-- The loops stand at an item that is not done. -/
def Before (r : Progress) (i : Item) : Prop :=
  i ∉ done.map Entry.item ∧ ∃ before, w.plan.items = before ++ i :: r.rest ∧ Passed done r before

/-- How far the writes of an item are. -/
inductive Stage (e : Entry) : Op Path UInt8 → List (Op Path UInt8) → Prop
  | png (h : Missing w files e.item) :
    Stage e (.overwrite (target w.settings e.item) e.png)
      [.overwrite (bundle_batch.sidecar w.settings e.item) (w.sidecarText (e.record w)),
        .append (manifestPath w.settings) (w.manifestLine (e.record w))]
  | sidecar (h : files (target w.settings e.item) = some e.png) :
    Stage e (.overwrite (bundle_batch.sidecar w.settings e.item) (w.sidecarText (e.record w)))
      [.append (manifestPath w.settings) (w.manifestLine (e.record w))]
  | manifest (h : e.Holds w files) :
    Stage e (.append (manifestPath w.settings) (w.manifestLine (e.record w))) []

def Stands : Pc → Prop
  | .idle => Settled w files₀ files done none ∧ Listed w files done
  | .opening true => Settled w files₀ files done none ∧ Listed w files done
  | .opening false => Settled w files₀ files done none ∧ done = []
  | .loop r => Settled w files₀ files done none ∧ Listed w files done ∧
      ∃ before, w.plan.items = before ++ r.rest ∧ Passed done r before
  | .posting r i retry => Settled w files₀ files done none ∧ Listed w files done ∧
      Before w done r i ∧ (retry = true → w.answer (payload w.settings i) = none)
  | .writing r retry op ops => Listed w files done ∧ ∃ e : Entry,
      Settled w files₀ files done (some e.item) ∧ Before w done r e.item ∧ e.retry = retry ∧
        e.Served w ∧ Stage w files e op ops
  | .finished failures => Settled w files₀ files done none ∧ Listed w files done ∧
      (failures = 0 → ∀ i ∈ w.plan.items, i ∈ done.map Entry.item)

end Invariant

variable (w files₀) in
/-- Some items are done, and nothing else has been touched but by the item under way. -/
def Inv (s : State) : Prop := ∃ done, Stands w files₀ s.files done s.pc

variable {r : Progress} {retry : Bool} {e : Entry} {op : Op Path UInt8}
  {ops : List (Op Path UInt8)}

theorem Before.mem (h : Before w done r i) : i ∈ w.plan.items := by
  obtain ⟨-, before, hitems, -⟩ := h
  rw [hitems]
  simp

/-- Past an item that has failed. -/
theorem Before.failed (h : Before w done r i) :
    ∃ before, w.plan.items = before ++ r.fail.rest ∧ Passed done r.fail before := by
  obtain ⟨-, before, hitems, hpassed⟩ := h
  refine ⟨before ++ [i], by simp [Progress.fail, hitems], ⟨fun h => ?_, fun h e he => ?_⟩⟩
  · cases h
  · exact List.mem_append_left _ (hpassed.fresh h e he)

/-- Past an item that is done now. -/
theorem Before.passed (h : Before w done r e.item) :
    ∃ before, w.plan.items = before ++ r.rest ∧ Passed (done ++ [e]) r before := by
  obtain ⟨-, before, hitems, hpassed⟩ := h
  refine ⟨before ++ [e.item], by simp [hitems], ⟨fun h i hi => ?_, fun h e' he' => ?_⟩⟩
  · rw [List.map_append, List.mem_append]
    rcases List.mem_append.mp hi with hi | hi
    · exact Or.inl (hpassed.clean h i hi)
    · rw [List.mem_singleton.mp hi]
      simp
  · rcases List.mem_append.mp he' with he' | he'
    · exact List.mem_append_left _ (hpassed.fresh h e' he')
    · rw [List.mem_singleton.mp he']
      simp

/-- An exception leaves the loops at the next item, or no run at all. -/
theorem stands_afterFault (hsettled : Settled w files₀ files done none)
    (hlisted : Listed w files done)
    (h : ∃ before, w.plan.items = before ++ r.fail.rest ∧ Passed done r.fail before) :
    Stands w files₀ files done (afterFault r retry) := by
  cases retry with
  | true => exact ⟨hsettled, hlisted⟩
  | false => exact ⟨hsettled, hlisted, h⟩

/-! ## The writes of an item -/

theorem getD_manifestOf (records : List Fields) :
    (manifestOf w records).getD [] = records.flatMap w.manifestLine := by
  unfold manifestOf
  split
  · rename_i h
    simp [h]
  · rfl

theorem listed_append (h : Listed w files done) :
    Listed w ((Op.append (manifestPath w.settings) (w.manifestLine (e.record w))).run files)
      (done ++ [e]) := by
  unfold Listed at *
  rw [Op.run_append, h, getD_manifestOf, List.map_append, manifestOf, if_neg (by simp),
    List.flatMap_append]
  simp

/-- A write to a PNG or a sidecar lets the manifest be. -/
theorem listed_of_touched (h : Listed w files done) (hpath : op.path ∈ touched w.settings i)
    (progress : Option Nat) : Listed w (op.torn progress files) done := by
  unfold Listed at *
  rw [Op.torn_other _ _ _, h]
  rintro heq
  rw [← heq] at hpath
  exact manifest_not_touched _ _ hpath

theorem Passed.fail {before : List Item} (h : Passed done r before) :
    Passed done r.fail before :=
  ⟨fun hnone => absurd hnone (Nat.succ_ne_zero _), h.fresh⟩

section Writes

variable (hdistinct : (w.plan.items.map (target w.settings)).Nodup)
include hdistinct

theorem Settled.torn (h : Settled w files₀ files done (some i)) (hbefore : Before w done r i)
    (hpath : op.path ∈ touched w.settings i ∨ op.path = manifestPath w.settings)
    (progress : Option Nat) : Settled w files₀ (op.torn progress files) done (some i) := by
  apply h.write hdistinct hbefore.mem hbefore.1
  intro p hp hmanifest
  apply Op.torn_other
  rintro rfl
  rcases hpath with hpath | hpath
  · exact hp hpath
  · exact hmanifest hpath

theorem kept_run (hlisted : Listed w files done)
    (hsettled : Settled w files₀ files done (some i)) (hbefore : Before w done r i)
    (hpath : op.path ∈ touched w.settings i) :
    Listed w (op.run files) done ∧ Settled w files₀ (op.run files) done (some i) := by
  rw [← Op.torn_of_le le_rfl files]
  exact ⟨listed_of_touched hlisted hpath _, hsettled.torn hdistinct hbefore (Or.inl hpath) _⟩

/-- The line of the manifest closes an item. -/
theorem closed (hlisted : Listed w files done)
    (hsettled : Settled w files₀ files done (some e.item)) (hbefore : Before w done r e.item)
    (hholds : e.Holds w files) :
    let files' := (Op.append (manifestPath w.settings) (w.manifestLine (e.record w))).run files
    Settled w files₀ files' (done ++ [e]) none ∧ Listed w files' (done ++ [e]) := by
  intro files'
  have hrest : Settled w files₀ files' done (some e.item) := by
    apply hsettled.write hdistinct hbefore.mem hbefore.1
    exact fun p _ hmanifest => Op.run_other hmanifest files
  have hstill : e.Holds w files' := by
    apply hholds.congr
    intro p hp
    apply Op.run_other
    rw [Op.path_append]
    rintro rfl
    exact manifest_not_touched _ _ hp
  exact ⟨hrest.close hbefore.mem hbefore.1 hstill, listed_append hlisted⟩

/-- A write that stops harmlessly leaves an item done or not begun. -/
theorem stage_torn {progress : Option Nat} (hlisted : Listed w files done)
    (hsettled : Settled w files₀ files done (some e.item)) (hbefore : Before w done r e.item)
    (hstage : Stage w files e op ops) (hharmless : Harmless op ops progress) :
    ∃ done', Settled w files₀ (op.torn progress files) done' none ∧
      Listed w (op.torn progress files) done' ∧
      ∃ before, w.plan.items = before ++ r.fail.rest ∧ Passed done' r.fail before := by
  cases hstage with
  | png hmissing =>
    have hprogress : progress = none ∨ progress = some 0 := by
      rcases hharmless with ⟨-, h⟩ | ⟨h, -⟩
      · exact h
      · exact absurd h (List.cons_ne_nil _ _)
    have hpath : (Op.overwrite (target w.settings e.item) e.png).path ∈
        touched w.settings e.item := by simp [touched]
    refine ⟨done, ?_, listed_of_touched hlisted hpath progress, hbefore.failed⟩
    apply (hsettled.torn hdistinct hbefore (Or.inl hpath) progress).drop
    have hleft := @Op.torn_overwrite_empty _ _ _ (target w.settings e.item) e.png _ hprogress files
    unfold Missing at *
    rcases hleft with h | h
    · rw [h]
      exact hmissing
    · exact Or.inr h
  | sidecar _ =>
    rcases hharmless with ⟨h, -⟩ | ⟨h, -⟩
    · simp at h
    · exact absurd h (List.cons_ne_nil _ _)
  | manifest hholds =>
    obtain ⟨n, rfl, hn⟩ : ∃ n, progress = some n ∧ _ ≤ n := by
      rcases hharmless with ⟨h, -⟩ | ⟨-, h⟩
      · simp at h
      · exact h
    rw [Op.torn_of_le hn]
    obtain ⟨hclosed, hlines⟩ := closed hdistinct hlisted hsettled hbefore hholds
    obtain ⟨before, hitems, hpassed⟩ := hbefore.passed
    exact ⟨_, hclosed, hlines, before, hitems, hpassed.fail⟩

/-- A whole write leads to the next one, and the last one past the item. -/
theorem stage_write (hlisted : Listed w files done)
    (hsettled : Settled w files₀ files done (some e.item)) (hbefore : Before w done r e.item)
    (hserved : e.Served w) (hstage : Stage w files e op ops) :
    ∃ done', Stands w files₀ (op.run files) done' (afterWrite r e.retry ops) := by
  cases hstage with
  | png _ =>
    have hpath : (Op.overwrite (target w.settings e.item) e.png).path ∈
        touched w.settings e.item := by simp [touched]
    obtain ⟨hlines, hkept⟩ := kept_run hdistinct hlisted hsettled hbefore hpath
    exact ⟨done, hlines, e, hkept, hbefore, rfl, hserved, .sidecar (Op.run_overwrite _ _ _)⟩
  | sidecar htarget =>
    have hpath : (Op.overwrite (bundle_batch.sidecar w.settings e.item)
        (w.sidecarText (e.record w))).path ∈ touched w.settings e.item := by
      simp [touched]
    obtain ⟨hlines, hkept⟩ := kept_run hdistinct hlisted hsettled hbefore hpath
    refine ⟨done, hlines, e, hkept, hbefore, rfl, hserved, .manifest ⟨hserved, ?_, ?_⟩⟩
    · rw [Op.run_other, htarget]
      rw [Op.path_overwrite]
      exact target_ne_sidecar _ _ _
    · exact Op.run_overwrite _ _ _
  | manifest hholds =>
    obtain ⟨hclosed, hlines⟩ := closed hdistinct hlisted hsettled hbefore hholds
    exact ⟨_, hclosed, hlines, hbefore.passed⟩

end Writes

/-! ## The steps -/

/-- What is served is the outcome of the item. -/
theorem served_outcome {png : Bytes}
    (hretry : retry = true → w.answer (payload w.settings i) = none)
    (h : w.answer (payloadOf w i retry) = some png) : outcome w i = some (png, retry) := by
  unfold outcome
  cases retry with
  | false =>
    rw [show w.answer (payload w.settings i) = some png from h]
  | true =>
    rw [hretry rfl]
    have hserved : w.answer (retryPayload w.settings i) = some png := h
    rw [hserved]
    rfl

/-- The service's answer leads to the writes, a refusal to the second request,
and anything else past the item. -/
theorem stands_afterReply {reply : Reply} {s' : State}
    (h : Stands w files₀ files done (.posting r i retry))
    (hallowed : Allowed w ⟨files, .posting r i retry⟩ (.reply reply))
    (hnext : afterReply w files r i retry reply = some s') :
    Stands w files₀ s'.files done s'.pc := by
  obtain ⟨hsettled, hlisted, hbefore, hretry⟩ := h
  cases reply with
  | served jobId generatedAt =>
    unfold afterReply at hnext
    dsimp only at hnext
    cases hanswer : w.answer (payloadOf w i retry) with
    | none =>
      rw [hanswer] at hnext
      cases hnext
    | some png =>
      rw [hanswer] at hnext
      rw [← Option.some.inj hnext]
      have hne : png ≠ [] := by
        rintro rfl
        exact hallowed hanswer
      exact ⟨hlisted, ⟨i, png, retry, jobId, generatedAt⟩, hsettled.of_free, hbefore, rfl,
        ⟨served_outcome hretry hanswer, hne⟩,
        .png (hsettled.missing i hbefore.mem hbefore.1 (by simp))⟩
  | httpError status body =>
    unfold afterReply at hnext
    dsimp only at hnext
    split at hnext
    · rename_i hrefused
      rw [← Option.some.inj hnext]
      rw [Bool.and_eq_true, Bool.not_eq_true'] at hrefused
      obtain ⟨rfl, hshould⟩ := hrefused
      exact ⟨hsettled, hlisted, hbefore, fun _ => hallowed hshould⟩
    · rw [← Option.some.inj hnext]
      exact ⟨hsettled, hlisted, hbefore.failed⟩
  | raised =>
    rw [← Option.some.inj hnext]
    exact stands_afterFault hsettled hlisted hbefore.failed

/-- The resume test passes over an item that is done. Any other is requested. -/
theorem stands_next {resume : Bool} {rest : List Item} {failures : Nat}
    (hdistinct : (w.plan.items.map (target w.settings)).Nodup)
    (h : Stands w files₀ files done (.loop ⟨resume, i :: rest, failures⟩)) :
    Stands w files₀ files done
      (if resume && existing files w.settings i then .loop ⟨resume, rest, failures⟩
        else .posting ⟨resume, rest, failures⟩ i false) := by
  obtain ⟨hsettled, hlisted, before, hitems, hpassed⟩ := h
  have hi : i ∈ w.plan.items := by
    rw [hitems]
    simp
  by_cases hskip : (resume && existing files w.settings i) = true
  · rw [if_pos hskip]
    rw [Bool.and_eq_true, existing_iff] at hskip
    obtain ⟨rfl, hfound⟩ := hskip
    have hdone : i ∈ done.map Entry.item := by
      by_contra hnot
      exact hfound (hsettled.missing i hi hnot (by simp))
    refine ⟨hsettled, hlisted, before ++ [i], by simp [hitems], ⟨fun hclean j hj => ?_, ?_⟩⟩
    · rcases List.mem_append.mp hj with hj | hj
      · exact hpassed.clean hclean j hj
      · rw [List.mem_singleton.mp hj]
        exact hdone
    · intro hfresh
      cases hfresh
  · rw [if_neg hskip]
    refine ⟨hsettled, hlisted, ⟨?_, before, hitems, hpassed.clean, hpassed.fresh⟩, by simp⟩
    intro hdone
    obtain ⟨e, he, rfl⟩ := List.mem_map.mp hdone
    cases resume with
    | true =>
      rw [Bool.true_and, existing_iff, not_not] at hskip
      exact (hsettled.holds e he).not_missing hskip
    | false =>
      -- the run has not come to the item before
      have hnodup := hdistinct.of_map
      rw [hitems] at hnodup
      have hapart := (List.nodup_append.mp hnodup).2.2
      exact hapart _ (hpassed.fresh rfl e he) _ List.mem_cons_self rfl

/-- What a killed run leaves. -/
theorem inv_kill {s s' : State} {progress : Option Nat}
    (hdistinct : (w.plan.items.map (target w.settings)).Nodup) (h : Inv w files₀ s)
    (hallowed : Allowed w s (.kill progress)) (hnext : next w s (.kill progress) = some s') :
    Inv w files₀ s' := by
  obtain ⟨files, pc⟩ := s
  obtain ⟨done, h⟩ := h
  cases pc with
  | idle => cases hnext
  | finished failures => cases hnext
  | opening resume =>
    cases hnext
    cases resume with
    | true => exact ⟨done, h⟩
    | false =>
      obtain ⟨hsettled, rfl⟩ := h
      exact ⟨[], hsettled, hallowed⟩
  | loop r =>
    cases hnext
    exact ⟨done, h.1, h.2.1⟩
  | posting r i retry =>
    cases hnext
    exact ⟨done, h.1, h.2.1⟩
  | writing r retry op ops =>
    cases hnext
    obtain ⟨hlisted, e, hsettled, hbefore, -, hserved, hstage⟩ := h
    obtain ⟨done', hleft, hlines, -⟩ :=
      stage_torn hdistinct hlisted hsettled hbefore hstage hallowed
    exact ⟨done', hleft, hlines⟩

/-- The first run takes the manifest of an earlier batch away. -/
theorem stands_openManifest {resume : Bool} (h : Stands w files₀ files done (.opening resume)) :
    Stands w files₀
      (if resume then files else Function.update files (manifestPath w.settings) none) done
      (.loop ⟨resume, w.plan.items, 0⟩) := by
  cases resume with
  | true =>
    refine ⟨h.1, h.2, [], rfl, ⟨fun _ i hi => absurd hi List.not_mem_nil, fun hfresh => ?_⟩⟩
    cases hfresh
  | false =>
    obtain ⟨hsettled, rfl⟩ := h
    have hother {p : Path} (hp : p ≠ manifestPath w.settings) :
        Function.update files (manifestPath w.settings) none p = files p :=
      Function.update_of_ne hp _ _
    refine ⟨⟨?_, List.nodup_nil, ?_, ?_, ?_⟩, ?_, [], rfl, ?_⟩
    · exact fun e he => absurd he List.not_mem_nil
    · exact fun e he => absurd he List.not_mem_nil
    · intro i hi hnot hbusy
      have hne : target w.settings i ≠ manifestPath w.settings := by
        intro heq
        apply manifest_not_touched w.settings i
        rw [← heq]
        simp [touched]
      have hmissing := hsettled.missing i hi hnot hbusy
      unfold Missing at *
      rw [if_neg (by simp), hother hne]
      exact hmissing
    · intro p hp hfree
      rw [if_neg (by simp), hother hp]
      exact hsettled.others p hp hfree
    · unfold Listed
      rw [if_neg (by simp), Function.update_self]
      rfl
    · exact ⟨fun _ i hi => absurd hi List.not_mem_nil, fun _ e he => absurd he List.not_mem_nil⟩

theorem inv_next {s s' : State} {a : Label}
    (hdistinct : (w.plan.items.map (target w.settings)).Nodup) (h : Inv w files₀ s)
    (hallowed : Allowed w s a) (hresumes : Resumes a) (hnext : next w s a = some s') :
    Inv w files₀ s' := by
  obtain ⟨files, pc⟩ := s
  obtain ⟨done, h⟩ := h
  cases a with
  | kill progress => exact inv_kill hdistinct ⟨done, h⟩ hallowed hnext
  | start resume =>
    have hresume : resume = true := hresumes
    subst hresume
    cases pc <;> cases hnext
    · exact ⟨done, h⟩
    · exact ⟨done, h.1, h.2.1⟩
  | openManifest =>
    cases pc <;> cases hnext
    exact ⟨done, stands_openManifest h⟩
  | next =>
    cases pc with
    | loop r =>
      obtain ⟨resume, _ | ⟨i, rest⟩, failures⟩ := r
      · cases hnext
      · have hstands := stands_next hdistinct h
        simp only [bundle_run.next] at hnext
        split at hnext
        · rename_i hskip
          rw [if_pos hskip] at hstands
          cases hnext
          exact ⟨done, hstands⟩
        · rename_i hskip
          rw [if_neg hskip] at hstands
          cases hnext
          exact ⟨done, hstands⟩
    | _ => cases hnext
  | reply reply =>
    cases pc <;> try cases hnext
    exact ⟨done, stands_afterReply h hallowed hnext⟩
  | write =>
    cases pc <;> cases hnext
    obtain ⟨hlisted, e, hsettled, hbefore, rfl, hserved, hstage⟩ := h
    exact stage_write hdistinct hlisted hsettled hbefore hserved hstage
  | fault progress =>
    cases pc <;> cases hnext
    obtain ⟨hlisted, e, hsettled, hbefore, -, hserved, hstage⟩ := h
    obtain ⟨done', hleft, hlines, hpast⟩ :=
      stage_torn hdistinct hlisted hsettled hbefore hstage hallowed
    exact ⟨done', stands_afterFault hleft hlines hpast⟩
  | finish =>
    cases pc with
    | loop r =>
      obtain ⟨resume, _ | ⟨i, rest⟩, failures⟩ := r
      · obtain ⟨hsettled, hlisted, before, hitems, hpassed⟩ := h
        simp only [bundle_run.next] at hnext
        split at hnext
        · cases hnext
          refine ⟨done, hsettled, hlisted, fun hclean i hi => ?_⟩
          rw [hitems, List.append_nil] at hi
          exact hpassed.clean hclean i hi
        · cases hnext
          exact ⟨done, hsettled, hlisted⟩
      · cases hnext
    | _ => cases hnext

/-! ## Whole runs -/

/-- A run that is through without a failure has done every item. -/
theorem settled_of_run (hdistinct : (w.plan.items.map (target w.settings)).Nodup)
    (hfresh : ∀ i ∈ w.plan.items, Missing w files i) {labels : List Label} {t : State}
    (hallowed : AllSteps (next w) (Allowed w) ⟨files, .idle⟩ (.start false :: labels))
    (hresumes : ∀ a ∈ labels, Resumes a)
    (hrun : exec (next w) ⟨files, .idle⟩ (.start false :: labels) = some t)
    (hpc : t.pc = .finished 0) :
    ∃ done, Settled w files t.files done none ∧ Listed w t.files done ∧
      ∀ i ∈ w.plan.items, i ∈ done.map Entry.item := by
  obtain ⟨s, hstart, hrest⟩ := exec_cons.mp hrun
  have hs : Inv w files s := by
    cases hstart
    refine ⟨[], ⟨?_, List.nodup_nil, ?_, fun i hi _ _ => hfresh i hi, fun p _ _ => rfl⟩, rfl⟩
    · exact fun e he => absurd he List.not_mem_nil
    · exact fun e he => absurd he List.not_mem_nil
  have hlater : AllSteps (next w) (fun _ a => Resumes a) s labels :=
    allSteps_of_forall labels (fun a ha _ => hresumes a ha) s
  have hinv : Inv w files t := invariant
    (fun s a s' hs hok hnext => inv_next hdistinct hs hok.1 hok.2 hnext) hs
    ((hallowed.2 s hstart).and hlater) hrest
  obtain ⟨done, hstands⟩ := hinv
  rw [hpc] at hstands
  exact ⟨done, hstands.1, hstands.2.1, hstands.2.2 rfl⟩

/-- `generated_at` and `job_id` apart, the record of an item is always the same. -/
theorem stable_record (s : Settings) (i : Item) (retry : Bool) (jobId jobId' : Option String)
    (generatedAt generatedAt' : String) :
    stable (record s i retry jobId generatedAt) =
      stable (record s i retry jobId' generatedAt') := by
  have hmeta (tb : Option Bool) : stable (buildPromptMeta s i tb jobId generatedAt) =
      stable (buildPromptMeta s i tb jobId' generatedAt') := by
    unfold stable buildPromptMeta
    apply restrict_update_congr
    apply restrict_update_congr
    simp [restrict]
  unfold record
  split
  · exact restrict_update_congr _ (hmeta none)
  · exact hmeta _

/-- The stable part of the record that an item comes to. -/
def stableOf (w : World) (i : Item) : Fields :=
  stable (record w.settings i (((outcome w i).map Prod.snd).getD false) none "")

theorem Entry.Served.stable_eq {e : Entry} (h : e.Served w) :
    stable (e.record w) = stableOf w e.item := by
  unfold stableOf
  rw [h.1]
  exact stable_record _ _ _ _ _ _ _

/-- Two ends that have done every item are the same. -/
theorem same_of_settled {files' files'' : Files Path UInt8} {done' : List Entry}
    (h : Settled w files files' done none) (hlisted : Listed w files' done)
    (hall : ∀ i ∈ w.plan.items, i ∈ done.map Entry.item)
    (h' : Settled w files files'' done' none) (hlisted' : Listed w files'' done')
    (hall' : ∀ i ∈ w.plan.items, i ∈ done'.map Entry.item) : Same w files' files'' := by
  have hboth {i : Item} (hi : i ∈ w.plan.items) : ∃ e e' : Entry, e.item = i ∧ e'.item = i ∧
      e.Holds w files' ∧ e'.Holds w files'' := by
    obtain ⟨e, he, heq⟩ := List.mem_map.mp (hall i hi)
    obtain ⟨e', he', heq'⟩ := List.mem_map.mp (hall' i hi)
    exact ⟨e, e', heq, heq', h.holds e he, h'.holds e' he'⟩
  constructor
  · intro p hp hside
    by_cases htarget : ∃ i ∈ w.plan.items, p = target w.settings i
    · obtain ⟨i, hi, hpath⟩ := htarget
      obtain ⟨e, e', rfl, heq', hholds, hholds'⟩ := hboth hi
      have hsame := hholds.served.1
      rw [← heq', hholds'.served.1, Option.some.injEq, Prod.mk.injEq] at hsame
      have hfound := hholds'.target
      rw [heq', hsame.1] at hfound
      rw [hpath, hholds.target, hfound]
    · have hfree : ∀ i ∈ w.plan.items, p ∉ touched w.settings i := by
        intro i hi hmem
        rcases List.mem_cons.mp hmem with heq | hmem
        · exact htarget ⟨i, hi, heq⟩
        · exact hside i hi (List.mem_singleton.mp hmem)
      rw [h.others p hp hfree, h'.others p hp hfree]
  · intro i hi
    obtain ⟨e, e', rfl, heq', hholds, hholds'⟩ := hboth hi
    refine ⟨e.record w, e'.record w, hholds.sidecar, ?_, ?_⟩
    · rw [← heq', hholds'.sidecar]
    · rw [hholds.served.stable_eq, hholds'.served.stable_eq, heq']
  · refine ⟨_, _, hlisted, hlisted', ?_⟩
    have hstable {files : Files Path UInt8} {done : List Entry}
        (hholds : ∀ e ∈ done, e.Holds w files) :
        (done.map (Entry.record w)).map stable = (done.map Entry.item).map (stableOf w) := by
      rw [List.map_map, List.map_map]
      exact List.map_congr_left fun e he => (hholds e he).served.stable_eq
    rw [hstable h.holds, hstable h'.holds]
    apply List.Perm.map
    rw [List.perm_ext_iff_of_nodup h.once h'.once]
    intro i
    constructor
    · intro hi
      obtain ⟨e, he, rfl⟩ := List.mem_map.mp hi
      exact hall' _ (h.planned e he)
    · intro hi
      obtain ⟨e, he, rfl⟩ := List.mem_map.mp hi
      exact hall _ (h'.planned e he)

/-! ## A pack of one image -/

def answered : Label := .reply (.served (some "job") "2026-01-01T00:00:00+00:00")

def wholeRun : List Label := [.openManifest, .next, answered, .write, .write, .write, .finish]

/-- The first run is stopped between the PNG and the sidecar. -/
def stoppedLate : List Label :=
  [.openManifest, .next, answered, .write, .kill none, .start true, .openManifest, .next, .finish]

def noFiles : Files Path UInt8 := fun _ => none

theorem update_noFiles (p : Path) : Function.update noFiles p none = noFiles :=
  Function.update_eq_self p noFiles

structure OneItem (w : World) (i : Item) : Prop where
  items : w.plan.items = [i]
  stop : w.plan.stop = none
  answer : ∃ b png, w.answer (payload w.settings i) = some (b :: png)

namespace OneItem

variable (h : OneItem w i)
include h

theorem distinct : (w.plan.items.map (target w.settings)).Nodup := by simp [h.items]

theorem whole_ends : ∃ t, exec (next w) ⟨noFiles, .idle⟩ (.start false :: wholeRun) = some t ∧
    t.pc = .finished 0 ∧ t.files (manifestPath w.settings) ≠ none ∧
      AllSteps (next w) (Allowed w) ⟨noFiles, .idle⟩ (.start false :: wholeRun) := by
  obtain ⟨b, png, hanswer⟩ := h.answer
  simp [wholeRun, answered, exec, next, h.items, h.stop, afterReply, payloadOf, hanswer, writes,
    afterWrite, AllSteps, Allowed]

/-- The resume test finds the PNG, and no record is ever written. -/
theorem late_ends : ∃ t, exec (next w) ⟨noFiles, .idle⟩ (.start false :: stoppedLate) = some t ∧
    t.pc = .finished 0 ∧ t.files (manifestPath w.settings) = none := by
  obtain ⟨b, png, hanswer⟩ := h.answer
  have hne : manifestPath w.settings ≠
      (Op.overwrite (target w.settings i) (b :: png)).path := by
    rw [Op.path_overwrite]
    intro heq
    apply manifest_not_touched w.settings i
    rw [heq]
    simp [touched]
  simp only [stoppedLate, answered, exec, next, h.items, h.stop, afterReply, payloadOf, hanswer,
    writes, afterWrite, Op.torn, existing, update_noFiles, Bool.false_eq_true, if_false,
    Bool.false_and, Op.run_overwrite, Bool.and_self, if_true, Option.some.injEq,
    exists_eq_left', true_and]
  rw [Op.run_other hne]
  rfl

end OneItem

/-- `json.dumps`, of the values in the records of a small pack. -/
def dumped : Json → String
  | .null => "null"
  | .bool b => if b then "true" else "false"
  | .int i => toString i
  | .float (.finite q) => toString q.num ++ ".0"
  | .str s => "\"" ++ s ++ "\""
  | .arr [] => "[]"
  | _ => ""

def dumpedRecord (start between stop : String) (record : Fields) : Bytes :=
  (start ++ between.intercalate (record.map fun f => "\"" ++ f.1 ++ "\": " ++ dumped f.2) ++
    stop).toUTF8.data.toList

/-- A service that has the same four bytes for every payload. -/
def smallWorld (s : Settings) : World where
  lib := plainLib
  settings := s
  answer _ := some [137, 80, 78, 71]
  sidecarText := dumpedRecord "\x7b\n  " ",\n  " "\n\x7d\n"
  manifestLine := dumpedRecord "\x7b" ", " "\x7d\n"

theorem smallWorld_oneItem : Reads (smallPack "snow" ["oak"]) fun s =>
    ∃ i, OneItem (smallWorld s) i := by
  have hone : Reads (smallPack "snow" ["oak"]) fun s => (plan plainLib s).items.length = 1 :=
    reads_of_check (by decide +kernel)
  obtain ⟨s, hs, hstop, hdistinct, hlength⟩ := hone
  obtain ⟨i, hi⟩ := List.length_eq_one_iff.mp hlength
  exact ⟨s, hs, hstop, hdistinct, i, hi, hstop, 137, [80, 78, 71], rfl⟩

/-! ## Every pack -/

/-- A batch that is interrupted where that is harmless, and run again with
`--resume` until a run is through without a failure, leaves what one run without
an interruption leaves. -/
theorem resumed_equals_uninterrupted (w : World)
    (hdistinct : (w.plan.items.map (target w.settings)).Nodup) (files : Files Path UInt8)
    (hfresh : ∀ i ∈ w.plan.items, Missing w files i) {labels labels' : List Label} {t t' : State}
    (hallowed : AllSteps (next w) (Allowed w) ⟨files, .idle⟩ (.start false :: labels))
    (hresumes : ∀ a ∈ labels, Resumes a)
    (hrun : exec (next w) ⟨files, .idle⟩ (.start false :: labels) = some t)
    (hpc : t.pc = .finished 0)
    (hallowed' : AllSteps (next w) (Allowed w) ⟨files, .idle⟩ (.start false :: labels'))
    (hwhole : ∀ a ∈ labels', Uninterrupted a)
    (hrun' : exec (next w) ⟨files, .idle⟩ (.start false :: labels') = some t')
    (hpc' : t'.pc = .finished 0) : Same w t.files t'.files := by
  have hresumes' : ∀ a ∈ labels', Resumes a := by
    intro a ha
    have hone := hwhole a ha
    cases a with
    | start resume => exact hone.elim
    | _ => trivial
  obtain ⟨done, hsettled, hlisted, hall⟩ :=
    settled_of_run hdistinct hfresh hallowed hresumes hrun hpc
  obtain ⟨done', hsettled', hlisted', hall'⟩ :=
    settled_of_run hdistinct hfresh hallowed' hresumes' hrun' hpc'
  exact same_of_settled hsettled hlisted hall hsettled' hlisted' hall'

/-! ## A pack of two images -/

/-- A turn of the loops that makes an item. -/
def doItem : List Label := [.next, answered, .write, .write, .write]

/-- The first run is stopped before the PNG of the second item is opened. -/
def stoppedBetween : List Label :=
  [.openManifest] ++ doItem ++ [.next, answered, .kill none, .start true, .openManifest, .next] ++
    doItem ++ [.finish]

def wholePack : List Label := [.openManifest] ++ doItem ++ doItem ++ [.finish]

/-- A run of allowed steps. -/
def Leads (w : World) (s : State) (labels : List Label) (t : State) : Prop :=
  exec (next w) s labels = some t ∧ AllSteps (next w) (Allowed w) s labels

theorem Leads.append {s t u : State} {labels labels' : List Label} (h : Leads w s labels t)
    (h' : Leads w t labels' u) : Leads w s (labels ++ labels') u := by
  refine ⟨(exec_append _ _).mpr ⟨t, h.1, h'.1⟩, allSteps_append h.2 fun m hm => ?_⟩
  rw [h.1, Option.some.injEq] at hm
  rw [← hm]
  exact h'.2

/-- An item that the resume test does not find is made, and no other file changes. -/
theorem leads_doItem (files : Files Path UInt8) (rest : List Item) {resume : Bool}
    {failures : Nat} {b : UInt8} {png : Bytes}
    (hanswer : w.answer (payload w.settings i) = some (b :: png))
    (hfound : (resume && existing files w.settings i) = false) :
    ∃ files', Leads w ⟨files, .loop ⟨resume, i :: rest, failures⟩⟩ doItem
        ⟨files', .loop ⟨resume, rest, failures⟩⟩ ∧ existing files' w.settings i = true ∧
      ∀ p, p ∉ touched w.settings i → p ≠ manifestPath w.settings → files' p = files p := by
  refine ⟨(Op.append (manifestPath w.settings) (w.manifestLine
    (record w.settings i false (some "job") "2026-01-01T00:00:00+00:00"))).run
      ((Op.overwrite (sidecar w.settings i) (w.sidecarText
        (record w.settings i false (some "job") "2026-01-01T00:00:00+00:00"))).run
          ((Op.overwrite (target w.settings i) (b :: png)).run files)), ?_, ?_, ?_⟩
  · constructor <;>
      simp [doItem, answered, exec, next, hfound, afterReply, payloadOf, hanswer, writes,
        afterWrite, AllSteps, Allowed]
  · have hmanifest : target w.settings i ≠ manifestPath w.settings := by
      intro heq
      apply manifest_not_touched w.settings i
      rw [← heq]
      simp [touched]
    unfold existing
    rw [Op.run_other (by simpa using hmanifest),
      Op.run_other (by simpa using target_ne_sidecar w.settings i i), Op.run_overwrite]
  · intro p htouched hmanifest
    simp only [touched, List.mem_cons, List.not_mem_nil, or_false, not_or] at htouched
    rw [Op.run_other (by simpa using hmanifest), Op.run_other (by simpa using htouched.2),
      Op.run_other (by simpa using htouched.1)]

structure TwoItems (w : World) (i j : Item) : Prop where
  items : w.plan.items = [i, j]
  stop : w.plan.stop = none
  distinct : (w.plan.items.map (target w.settings)).Nodup
  answer : ∀ k, ∃ b png, w.answer (payload w.settings k) = some (b :: png)

namespace TwoItems

variable {j : Item} (h : TwoItems w i j)
include h

/-- The resume test looks for the second item at a path that the first one leaves alone. -/
theorem second_untouched {files' : Files Path UInt8}
    (hsame : ∀ p, p ∉ touched w.settings i → p ≠ manifestPath w.settings → files' p = files p) :
    existing files' w.settings j = existing files w.settings j := by
  have hne : j ≠ i := by
    rintro rfl
    have hdistinct := h.distinct
    simp [h.items] at hdistinct
  have hmem : target w.settings j ∈ touched w.settings j := by simp [touched]
  have hkept := hsame (target w.settings j)
    (untouched h.distinct (by simp [h.items]) (by simp [h.items]) hne _ hmem)
    fun heq => manifest_not_touched w.settings j (heq ▸ hmem)
  unfold existing
  rw [hkept]

theorem leads_finish (files : Files Path UInt8) (resume : Bool) :
    Leads w ⟨files, .loop ⟨resume, [], 0⟩⟩ [.finish] ⟨files, .finished 0⟩ := by
  constructor <;> simp [exec, next, h.stop, AllSteps, Allowed]

theorem leads_open (resume : Bool) (hresume : resume = true ∨ files = noFiles) :
    Leads w ⟨files, .opening resume⟩ [.openManifest] ⟨files, .loop ⟨resume, [i, j], 0⟩⟩ := by
  rcases hresume with rfl | rfl <;> constructor <;>
    simp [exec, next, h.items, AllSteps, Allowed, update_noFiles]

theorem whole_ends : ∃ t, Leads w ⟨noFiles, .idle⟩ (.start false :: wholePack) t ∧
    t.pc = .finished 0 := by
  obtain ⟨b, png, hi⟩ := h.answer i
  obtain ⟨c, png', hj⟩ := h.answer j
  obtain ⟨files, hfirst, -, -⟩ := leads_doItem noFiles [j] hi (Bool.false_and _)
  obtain ⟨files', hsecond, -, -⟩ := leads_doItem files [] hj (Bool.false_and _)
  have hstart : Leads w ⟨noFiles, .idle⟩ [.start false] ⟨noFiles, .opening false⟩ := by
    constructor <;> simp [exec, next, AllSteps, Allowed]
  have hopen := hstart.append (h.leads_open false (.inr rfl))
  exact ⟨_, ((hopen.append hfirst).append hsecond).append (h.leads_finish files' false), rfl⟩

/-- The second run skips the first item. -/
theorem stopped_ends : ∃ t, Leads w ⟨noFiles, .idle⟩ (.start false :: stoppedBetween) t ∧
    t.pc = .finished 0 := by
  obtain ⟨b, png, hi⟩ := h.answer i
  obtain ⟨c, png', hj⟩ := h.answer j
  obtain ⟨files, hfirst, hthere, hsame⟩ := leads_doItem noFiles [j] hi (Bool.false_and _)
  have hmissing : existing files w.settings j = false := by
    rw [h.second_untouched hsame]
    rfl
  obtain ⟨files', hsecond, -, -⟩ := leads_doItem files [] hj
    (by rw [hmissing, Bool.and_false] : (true && existing files w.settings j) = false)
  have hstart : Leads w ⟨noFiles, .idle⟩ [.start false] ⟨noFiles, .opening false⟩ := by
    constructor <;> simp [exec, next, AllSteps, Allowed]
  have hkilled : Leads w ⟨files, .loop ⟨false, [j], 0⟩⟩
      [.next, answered, .kill none, .start true, .openManifest, .next]
      ⟨files, .loop ⟨true, [j], 0⟩⟩ := by
    constructor <;>
      simp [answered, exec, next, h.items, afterReply, payloadOf, hj, writes, Op.torn, hthere,
        AllSteps, Allowed, Harmless]
  have hopen := hstart.append (h.leads_open false (.inr rfl))
  exact ⟨_, (((hopen.append hfirst).append hkilled).append hsecond).append
    (h.leads_finish files' true), rfl⟩

end TwoItems

theorem smallWorld_twoItems : Reads (smallPack "snow" ["oak", "elm"]) fun s =>
    ∃ i j, TwoItems (smallWorld s) i j := by
  have htwo : Reads (smallPack "snow" ["oak", "elm"]) fun s =>
      (plan plainLib s).items.length = 2 ∧
        ((plan plainLib s).items.map (target s)).Nodup := reads_of_check (by decide +kernel)
  obtain ⟨s, hs, hstop, hdistinct, hlength, htargets⟩ := htwo
  obtain ⟨i, j, hitems⟩ := List.length_eq_two.mp hlength
  exact ⟨s, hs, hstop, hdistinct, i, j, hitems, hstop, htargets, fun _ =>
    ⟨137, [80, 78, 71], rfl⟩⟩

/-- Stopped after the first item, before the PNG of the second one is opened. -/
theorem stopped_between_is_the_same : Reads (smallPack "snow" ["oak", "elm"]) fun s => ∃ t t',
    exec (next (smallWorld s)) ⟨noFiles, .idle⟩ (.start false :: stoppedBetween) = some t ∧
      exec (next (smallWorld s)) ⟨noFiles, .idle⟩ (.start false :: wholePack) = some t' ∧
      Same (smallWorld s) t.files t'.files := by
  obtain ⟨s, hs, hstop, hdistinct, i, j, htwo⟩ := smallWorld_twoItems
  obtain ⟨t, ⟨hrun, hallowed⟩, hpc⟩ := htwo.stopped_ends
  obtain ⟨t', ⟨hrun', hallowed'⟩, hpc'⟩ := htwo.whole_ends
  refine ⟨s, hs, hstop, hdistinct, t, t', hrun, hrun', ?_⟩
  refine resumed_equals_uninterrupted (smallWorld s) htwo.distinct noFiles
    (fun _ _ => Or.inl rfl) hallowed ?_ hrun hpc hallowed' ?_ hrun' hpc'
  · simp [stoppedBetween, doItem, answered, Resumes]
  · simp [wholePack, doItem, answered, Uninterrupted]

/-- Stopped between the PNG and the sidecar: the run with `--resume` ends without
a failure, and the record is missing. -/
theorem stopped_late_loses_the_record : Reads (smallPack "snow" ["oak"]) fun s => ∃ t t',
    exec (next (smallWorld s)) ⟨noFiles, .idle⟩ (.start false :: stoppedLate) = some t ∧
      (∀ a ∈ stoppedLate, Resumes a) ∧ t.pc = .finished 0 ∧
      exec (next (smallWorld s)) ⟨noFiles, .idle⟩ (.start false :: wholeRun) = some t' ∧
      (∀ a ∈ wholeRun, Uninterrupted a) ∧ t'.pc = .finished 0 ∧
      ¬ Same (smallWorld s) t.files t'.files := by
  obtain ⟨s, hs, hstop, hdistinct, i, hone⟩ := smallWorld_oneItem
  obtain ⟨t, hrun, hpc, hnone⟩ := hone.late_ends
  obtain ⟨t', hrun', hpc', hsome, -⟩ := hone.whole_ends
  refine ⟨s, hs, hstop, hdistinct, t, t', hrun, ?_, hpc, hrun', ?_, hpc', ?_⟩
  · simp [stoppedLate, answered, Resumes]
  · simp [wholeRun, answered, Uninterrupted]
  · intro hsame
    obtain ⟨records, records', hmanifest, hmanifest', hperm⟩ := hsame.manifest
    have hlength := hperm.length_eq
    rw [List.length_map, List.length_map] at hlength
    rw [hnone] at hmanifest
    rw [hmanifest'] at hsome
    unfold manifestOf at hmanifest hsome
    by_cases hrecords : records = []
    · rw [hrecords, List.length_nil, eq_comm, List.length_eq_zero_iff] at hlength
      exact hsome (if_pos hlength)
    · rw [if_neg hrecords] at hmanifest
      cases hmanifest

end image_gen.bundle_resume

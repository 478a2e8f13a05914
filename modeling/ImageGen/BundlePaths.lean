-- The output paths of the bundle batch. Ids are folded by `_safe` on their way
-- into a path, so two combinations are apart where nothing that tells them
-- apart is folded away.
import ImageGen.BundleBatch
import ImageGen.FetchNames
import Mathlib.Data.List.Pairwise

namespace image_gen.bundle_paths

open image_gen.bundle_batch image_gen.file_tree image_gen.lora_files image_gen.fetch_names
  image_gen.graph image_gen.json image_gen.py_str
open image_gen.civitai_fetch (slugChar subRuns)
open image_gen.eviction (pathWithSuffix)

/-! ## What a path must be -/

/-- No step of the path from the root leaves it. -/
def Under (root p : Path) : Prop := ∃ rest, p = root ++ rest ∧ ".." ∉ rest

/-- The files that an item reads or writes. -/
def touched (s : Settings) (i : Item) : List Path := [target s i, sidecar s i]

/-- No file of one item is a file of another, and all are under the root. -/
def Apart (s : Settings) (items : List Item) : Prop :=
  (items.Pairwise fun i j => ∀ p ∈ touched s i, p ∉ touched s j) ∧
    ∀ i ∈ items, ∀ p ∈ touched s i, Under s.outRoot p

/-! ## What the ids must be -/

/-- The directory that a biome gets. An empty name and a dot are none. -/
def folder (biomeId : String) : Path :=
  if safe biomeId = "" ∨ safe biomeId = "." then [] else [safe biomeId]

/-- Two numbers in the digits of ASCII. -/
def PlainSize (size : String) : Prop :=
  ∃ w h : List Char, size.toList = w ++ 'x' :: h ∧ w ≠ [] ∧ h ≠ [] ∧
    (∀ c ∈ w, c.isDigit = true) ∧ ∀ c ∈ h, c.isDigit = true

def imageName (i : Item) : String := safe i.entryId ++ "__" ++ sizeToken i.size

/-- The ids are folded into one name, at one size and seed. Digits of other
scripts are folded as well. -/
structure Alike (i j : Item) : Prop where
  seed : i.seed = j.seed
  biome : folder i.biomeId = folder j.biomeId
  entry : safe i.entryId = safe j.entryId ∧ i.size = j.size ∨
    (¬ PlainSize i.size ∨ ¬ PlainSize j.size) ∧ imageName i = imageName j

/-- No two combinations are alike, and no biome is the parent directory. -/
def ToldApart (items : List Item) : Prop :=
  (∀ i ∈ items, safe i.biomeId ≠ "..") ∧
    ∀ i ∈ items, ∀ j ∈ items, Alike i j → i.combination = j.combination

/-! ## Folding -/

theorem slugChar_toLower {c : Char} (h : slugChar c = true) : slugChar c.toLower = true := by
  by_cases hupper : c.isUpper = true
  · have hlower := (toLower_spec c).2.2 hupper
    simp [slugChar, Char.isAlphanum, py_str.isAlpha_eq, hlower]
  · rw [(toLower_spec c).2.1 (by simpa using hupper)]
    exact h

theorem mem_stripUnderscores {s : List Char} {c : Char} (h : c ∈ stripUnderscores s) : c ∈ s := by
  have hsub := (List.dropWhile_suffix _).subset (List.mem_reverse.mp h)
  exact (List.dropWhile_suffix _).subset (List.mem_reverse.mp hsub)

theorem safe_chars (value : String) : ∀ c ∈ (safe value).toList, slugChar c = true := by
  intro c hc
  unfold safe at hc
  rw [String.toList_ofList] at hc
  obtain ⟨a, ha, rfl⟩ := List.mem_map.mp hc
  apply slugChar_toLower
  rcases mem_subRuns (mem_stripUnderscores ha) with rfl | ⟨-, hkept⟩
  · decide
  · simpa using hkept

theorem slash_not_mem_safe (value : String) : '/' ∉ (safe value).toList := by
  intro h
  have hslug := safe_chars value '/' h
  revert hslug
  decide

/-- One name without a slash, of which `pathlib` keeps no dot. -/
theorem joinPath_name (root : Path) {name : String} (h : '/' ∉ name.toList) :
    joinPath root name = root ++ if name = "" ∨ name = "." then [] else [name] := by
  have hhead : name.toList.head? ≠ some '/' := fun hhead => h (List.mem_of_mem_head? hhead)
  rw [joinPath, if_neg hhead, components, List.splitOn_eq_singleton h, List.map_singleton,
    String.ofList_toList]
  by_cases hname : name = "" ∨ name = "."
  · rw [if_pos hname]
    rcases hname with rfl | rfl <;> simp
  · rw [if_neg hname]
    rw [not_or] at hname
    simp [hname]

theorem joinPath_safe (root : Path) (biomeId : String) :
    joinPath root (safe biomeId) = root ++ folder biomeId :=
  joinPath_name root (slash_not_mem_safe biomeId)

/-! ## File names -/

/-- The name of an item's files, without a suffix. -/
def stemName (i : Item) : List Char :=
  (imageName i).toList ++ '_' :: '_' :: 's' :: (toString i.seed).toList

theorem fileName_eq (i : Item) : fileName i = String.ofList (stemName i ++ ".png".toList) := by
  apply String.toList_injective
  simp [fileName, stemName, imageName]

theorem stemName_chars (i : Item) : ∀ c ∈ stemName i, slugChar c = true := by
  intro c hc
  unfold stemName imageName sizeToken at hc
  simp only [String.toList_append, List.mem_append, List.mem_cons] at hc
  rcases hc with ((hc | hc) | hc) | rfl | rfl | rfl | hc
  · exact safe_chars _ c hc
  · revert c
    decide
  · exact safe_chars _ c hc
  · decide
  · decide
  · decide
  · exact slugChar_of_version (version_chars _ c hc)

theorem slash_not_mem_stemName (i : Item) : '/' ∉ stemName i := by
  intro h
  have hslug := stemName_chars i '/' h
  revert hslug
  decide

theorem stemName_ne_nil (i : Item) : stemName i ≠ [] := by simp [stemName]

/-- The directory of the lane, below that of the biome. -/
def laneDir (s : Settings) (i : Item) : Path := s.outRoot ++ folder i.biomeId ++ [s.lane.text]

theorem slash_not_mem_fileName (i : Item) : '/' ∉ (fileName i).toList := by
  rw [fileName_eq, String.toList_ofList, List.mem_append, not_or]
  exact ⟨slash_not_mem_stemName i, by decide⟩

/-- What ends in these four characters is longer than a dot or two. -/
theorem fileName_ne (i : Item) {name : String} (h : name.toList.length < 4) :
    fileName i ≠ name := by
  intro heq
  have hlength : (fileName i).toList.length = (stemName i).length + 4 := by
    rw [fileName_eq, String.toList_ofList, List.length_append]
    rfl
  rw [heq] at hlength
  omega

theorem target_eq (s : Settings) (i : Item) : target s i = laneDir s i ++ [fileName i] := by
  have hlane : '/' ∉ s.lane.text.toList ∧ ¬ (s.lane.text = "" ∨ s.lane.text = ".") := by
    cases s.lane <;> decide
  unfold target laneDir
  rw [joinPath_safe, joinPath_name _ hlane.1, if_neg hlane.2,
    joinPath_name _ (slash_not_mem_fileName i), if_neg]
  rintro (h | h)
  · exact fileName_ne i (by decide) h
  · exact fileName_ne i (by decide) h

theorem sidecar_eq (s : Settings) (i : Item) :
    sidecar s i = laneDir s i ++ [String.ofList (stemName i) ++ ".prompt.json"] := by
  have hsuffix := withSuffix_eq "png".toList (stemName_ne_nil i) (by decide) (by decide)
    ".prompt.json"
  have hpng : ".png".toList = '.' :: "png".toList := by decide
  unfold sidecar
  rw [target_eq, pathWithSuffix_append, fileName_eq, hpng, hsuffix]

theorem fileName_ends (i : Item) : (fileName i).toList.getLast? = some 'g' := by
  have hpng : ".png".toList = ".pn".toList ++ ['g'] := by decide
  rw [fileName_eq, String.toList_ofList, hpng, ← List.append_assoc, List.getLast?_append]
  simp

/-- A PNG is no sidecar. -/
theorem target_ne_sidecar (s : Settings) (i j : Item) : target s i ≠ sidecar s j := by
  intro h
  rw [target_eq, sidecar_eq] at h
  have hname : fileName i = String.ofList (stemName j) ++ ".prompt.json" := by
    have hlast := congrArg List.getLast? h
    simpa using hlast
  have hends := fileName_ends i
  have hjson : ".prompt.json".toList = ".prompt.jso".toList ++ ['n'] := by decide
  rw [hname, String.toList_append, hjson, ← List.append_assoc, List.getLast?_append] at hends
  simp at hends

/-! ## What a name tells -/

/-- What stands after the last underscore, and what stands before it. -/
theorem last_underscore {a b t u : List Char} (ht : '_' ∉ t) (hu : '_' ∉ u)
    (h : a ++ '_' :: t = b ++ '_' :: u) : a = b ∧ t = u := by
  rcases List.append_eq_append_iff.mp h with ⟨mid, rfl, htail⟩ | ⟨mid, rfl, htail⟩
  · rcases mid with _ | ⟨c, mid⟩
    · exact ⟨by simp, (List.cons.inj htail).2⟩
    · rw [List.cons_append] at htail
      refine absurd ?_ ht
      rw [(List.cons.inj htail).2]
      simp
  · rcases mid with _ | ⟨c, mid⟩
    · exact ⟨by simp, (List.cons.inj htail).2.symm⟩
    · rw [List.cons_append] at htail
      refine absurd ?_ hu
      rw [(List.cons.inj htail).2]
      simp

theorem underscore_not_mem_seed (v : Int) : '_' ∉ 's' :: (toString v).toList := by
  intro hmem
  rcases List.mem_cons.mp hmem with heq | hmem
  · revert heq
    decide
  · rcases version_chars v '_' hmem with heq | hdigit
    · revert heq
      decide
    · revert hdigit
      decide

theorem stemName_inj {i j : Item} :
    stemName i = stemName j ↔ imageName i = imageName j ∧ i.seed = j.seed := by
  constructor
  · intro h
    have hsplit (k : Item) : stemName k =
        ((imageName k).toList ++ ['_']) ++ '_' :: 's' :: (toString k.seed).toList := by
      simp [stemName]
    rw [hsplit, hsplit] at h
    obtain ⟨hname, hseed⟩ :=
      last_underscore (underscore_not_mem_seed _) (underscore_not_mem_seed _) h
    exact ⟨String.toList_injective (List.append_cancel_right hname),
      version_injective (List.cons.inj hseed).2⟩
  · rintro ⟨hname, hseed⟩
    rw [stemName, stemName, hname, hseed]

theorem laneDir_append_inj {s : Settings} {i j : Item} {name name' : String} :
    laneDir s i ++ [name] = laneDir s j ++ [name'] ↔
      folder i.biomeId = folder j.biomeId ∧ name = name' := by
  unfold laneDir
  constructor
  · intro h
    obtain ⟨hdir, hname⟩ := List.append_inj' h rfl
    have hfolder := List.append_cancel_left (List.append_cancel_right hdir)
    exact ⟨hfolder, List.singleton_inj.mp hname⟩
  · rintro ⟨hfolder, rfl⟩
    rw [hfolder]

/-- A text that nothing is folded in. -/
theorem safe_of_kept {t : List Char} (hslug : ∀ c ∈ t, slugChar c = true)
    (hlower : ∀ c ∈ t, c.toLower = c) (hfirst : t.head? ≠ some '_')
    (hlast : t.getLast? ≠ some '_') : safe (String.ofList t) = String.ofList t := by
  have hruns : subRuns (fun c => !slugChar c) false t = t := by
    have hkept : ∀ u : List Char, (∀ c ∈ u, slugChar c = true) →
        subRuns (fun c => !slugChar c) false u = u := by
      intro u hu
      induction u with
      | nil => rfl
      | cons c u ih =>
        rw [subRuns, if_neg (by simp [hu c List.mem_cons_self]),
          ih fun c' hc' => hu c' (List.mem_cons_of_mem c hc')]
    exact hkept t hslug
  have hdrop : ∀ u : List Char, u.head? ≠ some '_' → u.dropWhile (· = '_') = u := by
    intro u hu
    cases u with
    | nil => rfl
    | cons c u =>
      apply List.dropWhile_cons_of_neg
      simpa using hu
  unfold safe stripUnderscores
  rw [String.toList_ofList, hruns, hdrop t hfirst, hdrop t.reverse (by simpa using hlast),
    List.reverse_reverse, List.map_congr_left hlower, List.map_id']

theorem sizeToken_plain {size : String} {w h : List Char} (hsize : size.toList = w ++ 'x' :: h)
    (hw : w ≠ []) (hh : h ≠ []) (hwdigits : ∀ c ∈ w, c.isDigit = true)
    (hhdigits : ∀ c ∈ h, c.isDigit = true) : sizeToken size = String.ofList (w ++ '_' :: h) := by
  have hne : ∀ c : Char, c.isDigit = true → c ≠ 'x' ∧ c ≠ '_' := by
    rintro c hc
    constructor <;> rintro rfl <;> revert hc <;> decide
  have hkept : ∀ u : List Char, (∀ c ∈ u, c.isDigit = true) →
      u.map (fun c => if c = 'x' then '_' else c) = u := by
    intro u hu
    rw [List.map_congr_left fun c hc => if_neg (hne c (hu c hc)).1, List.map_id']
  have hmap : size.toList.map (fun c => if c = 'x' then '_' else c) = w ++ '_' :: h := by
    rw [hsize, List.map_append, List.map_cons, hkept w hwdigits, hkept h hhdigits, if_pos rfl]
  have hchars : ∀ c ∈ w ++ '_' :: h, c = '_' ∨ c.isDigit = true := by
    intro c hc
    rcases List.mem_append.mp hc with hc | hc
    · exact Or.inr (hwdigits c hc)
    · rcases List.mem_cons.mp hc with rfl | hc
      · exact Or.inl rfl
      · exact Or.inr (hhdigits c hc)
  unfold sizeToken
  rw [hmap]
  apply safe_of_kept
  · intro c hc
    rcases hchars c hc with rfl | hdigit
    · decide
    · exact slugChar_of_version (Or.inr hdigit)
  · intro c hc
    rcases hchars c hc with rfl | hdigit
    · decide
    · exact (toLower_spec c).2.1 (isUpper_of_isDigit hdigit)
  · cases w with
    | nil => exact absurd rfl hw
    | cons c w => simpa using (hne c (hwdigits c List.mem_cons_self)).2
  · have hlast := List.getLast_mem hh
    rw [List.getLast?_append, List.getLast?_cons, List.getLast?_eq_some_getLast hh]
    simpa using (hne _ (hhdigits _ hlast)).2

/-- Two names of plain sizes are equal where the folded entries and the sizes are. -/
theorem imageName_plain {i j : Item} (hi : PlainSize i.size) (hj : PlainSize j.size) :
    imageName i = imageName j ↔ safe i.entryId = safe j.entryId ∧ i.size = j.size := by
  constructor
  · obtain ⟨w, h, hsize, hw, hh, hwdigits, hhdigits⟩ := hi
    obtain ⟨w', h', hsize', hw', hh', hwdigits', hhdigits'⟩ := hj
    have hfree : ∀ u : List Char, (∀ c ∈ u, c.isDigit = true) → '_' ∉ u := by
      intro u hu hmem
      have hdigit := hu '_' hmem
      revert hdigit
      decide
    intro heq
    unfold imageName at heq
    rw [sizeToken_plain hsize hw hh hwdigits hhdigits,
      sizeToken_plain hsize' hw' hh' hwdigits' hhdigits'] at heq
    have hchars := congrArg String.toList heq
    have hbars : "__".toList = ['_', '_'] := by decide
    simp only [String.toList_append, String.toList_ofList, hbars] at hchars
    rw [← List.append_assoc, ← List.append_assoc] at hchars
    obtain ⟨hfront, hheight⟩ := last_underscore (hfree h hhdigits) (hfree h' hhdigits') hchars
    have hsplit (e u : List Char) : e ++ ['_', '_'] ++ u = (e ++ ['_']) ++ '_' :: u := by simp
    rw [hsplit, hsplit] at hfront
    obtain ⟨hentry, hwidth⟩ := last_underscore (hfree w hwdigits) (hfree w' hwdigits') hfront
    refine ⟨String.toList_injective (List.append_cancel_right hentry), ?_⟩
    apply String.toList_injective
    rw [hsize, hsize', hwidth, hheight]
  · rintro ⟨hentry, hsize⟩
    rw [imageName, imageName, hentry, hsize]

/-- The items of one target are those that are alike. -/
theorem target_inj {s : Settings} {i j : Item} : target s i = target s j ↔ Alike i j := by
  have hname : fileName i = fileName j ↔ imageName i = imageName j ∧ i.seed = j.seed := by
    rw [← stemName_inj, fileName_eq, fileName_eq, ← String.toList_inj]
    simp
  have hentry : imageName i = imageName j ↔ safe i.entryId = safe j.entryId ∧ i.size = j.size ∨
      (¬ PlainSize i.size ∨ ¬ PlainSize j.size) ∧ imageName i = imageName j := by
    constructor
    · intro h
      by_cases hplain : PlainSize i.size ∧ PlainSize j.size
      · exact Or.inl ((imageName_plain hplain.1 hplain.2).mp h)
      · exact Or.inr ⟨not_and_or.mp hplain, h⟩
    · rintro (⟨hentry, hsize⟩ | h)
      · rw [imageName, imageName, hentry, hsize]
      · exact h.2
  rw [target_eq, target_eq, laneDir_append_inj, hname]
  constructor
  · rintro ⟨hbiome, h, hseed⟩
    exact ⟨hseed, hbiome, hentry.mp h⟩
  · rintro ⟨hseed, hbiome, h⟩
    exact ⟨hbiome, hentry.mpr h, hseed⟩

theorem sidecar_inj {s : Settings} {i j : Item} : sidecar s i = sidecar s j ↔ Alike i j := by
  have hname : String.ofList (stemName i) ++ ".prompt.json" =
      String.ofList (stemName j) ++ ".prompt.json" ↔ fileName i = fileName j := by
    rw [fileName_eq, fileName_eq, ← String.toList_inj, ← String.toList_inj]
    simp
  rw [← @target_inj s, sidecar_eq, sidecar_eq, target_eq, target_eq, laneDir_append_inj,
    laneDir_append_inj, hname]

/-! ## Items apart -/

/-- The files of two items are disjoint where the items are not alike. -/
theorem disjoint_iff {s : Settings} {i j : Item} :
    (∀ p ∈ touched s i, p ∉ touched s j) ↔ ¬ Alike i j := by
  constructor
  · intro h halike
    apply h (target s i) List.mem_cons_self
    rw [target_inj.mpr halike]
    exact List.mem_cons_self
  · intro h p hp hp'
    simp only [touched, List.mem_cons, List.not_mem_nil, or_false] at hp hp'
    rcases hp with hp | hp <;> rcases hp' with hp' | hp'
    · exact h (target_inj.mp (hp.symm.trans hp'))
    · exact target_ne_sidecar s i j (hp.symm.trans hp')
    · exact target_ne_sidecar s j i (hp'.symm.trans hp)
    · exact h (sidecar_inj.mp (hp.symm.trans hp'))

theorem under_append {root rest : Path} : Under root (root ++ rest) ↔ ".." ∉ rest := by
  constructor
  · rintro ⟨rest', heq, h⟩
    rw [List.append_cancel_left heq]
    exact h
  · exact fun h => ⟨rest, rfl, h⟩

theorem parent_mem_folder {biomeId : String} : ".." ∈ folder biomeId ↔ safe biomeId = ".." := by
  unfold folder
  split
  · rename_i h
    rcases h with h | h <;> simp [h]
  · rw [List.mem_singleton, eq_comm]

/-- The lane and the names of the files lead down. -/
theorem under_iff {s : Settings} {i : Item} :
    (∀ p ∈ touched s i, Under s.outRoot p) ↔ safe i.biomeId ≠ ".." := by
  have hlane : s.lane.text ≠ ".." := by cases s.lane <;> decide
  have hside : String.ofList (stemName i) ++ ".prompt.json" ≠ ".." := by
    intro heq
    have hlength := congrArg (fun t : String => t.toList.length) heq
    have hjson : ".prompt.json".toList.length = 12 := by decide
    have hparent : "..".toList.length = 2 := by decide
    simp only [String.toList_append, List.length_append, hjson, hparent] at hlength
    omega
  have hdown {name : String} (hname : name ≠ "..") :
      Under s.outRoot (laneDir s i ++ [name]) ↔ safe i.biomeId ≠ ".." := by
    rw [laneDir, List.append_assoc, List.append_assoc, under_append, List.mem_append,
      parent_mem_folder]
    simp [hlane.symm, hname.symm]
  simp only [touched, List.mem_cons, List.not_mem_nil, or_false, forall_eq_or_imp, forall_eq]
  rw [target_eq, sidecar_eq, hdown (fileName_ne i (by decide)), hdown hside, and_self]

theorem Apart.nodup_targets {s : Settings} {items : List Item} (h : Apart s items) :
    (items.map (target s)).Nodup := by
  rw [List.Nodup, List.pairwise_map]
  apply h.1.imp
  intro i j hdisjoint heq
  apply hdisjoint (target s i) List.mem_cons_self
  rw [heq]
  exact List.mem_cons_self

/-! ## Packs -/

def plainTemplate : String := "\x7bbiome_hint\x7d \x7bsubject\x7d"

/-- `format`, of the template above. -/
def plainLib : Lib where
  py := asciiBuiltins
  format template hint subject :=
    if template = plainTemplate then some (hint ++ " " ++ subject) else none
  shownCompositions := ""

/-- A pack of one biome. -/
def smallPack (biomeId : String) (entryIds : List String) : StoredJson :=
  .value (.obj [
    ("terrain_entries", .arr (entryIds.map fun id =>
      .obj [("id", .str id), ("prompt_subject", .str "an oak")])),
    ("biomes", .arr [.obj [("id", .str biomeId), ("hint", .str "snow")]]),
    ("prompt_template", .str plainTemplate), ("model", .str "flux")])

def smallArgs : Args := ⟨"pack.json", "out", ""⟩

/-- What `main` reads of the pack, with what is to be checked of it. -/
def Reads (file : StoredJson) (P : Settings → Prop) : Prop :=
  ∃ s, settings plainLib smallArgs (some file) = .ok s ∧ (plan plainLib s).stop = none ∧
    ((plan plainLib s).items.map Item.combination).Nodup ∧ P s

theorem reads_of_check {file : StoredJson} {P : Settings → Prop} [DecidablePred P]
    (h : (match settings plainLib smallArgs (some file) with
      | .ok s => decide ((plan plainLib s).stop = none ∧
          ((plan plainLib s).items.map Item.combination).Nodup ∧ P s)
      | .error _ => false) = true) : Reads file P := by
  cases hs : settings plainLib smallArgs (some file) with
  | error e =>
    rw [hs] at h
    cases h
  | ok s =>
    rw [hs] at h
    exact ⟨s, hs, of_decide_eq_true h⟩

/-! ## Every pack -/

/-- For the combinations of every pack, which are distinct: no file of one is a
file of another, and all are under the output root, exactly when the ids keep
the combinations apart. -/
theorem outputs_apart_iff (lib : Lib) (s : Settings)
    (hdistinct : ((plan lib s).items.map Item.combination).Nodup) :
    Apart s (plan lib s).items ↔ ToldApart (plan lib s).items := by
  have hsame {i j : Item} (hi : i ∈ (plan lib s).items) (hj : j ∈ (plan lib s).items) :
      i.combination = j.combination ↔ i = j :=
    ⟨fun h => List.inj_on_of_nodup_map hdistinct hi hj h, fun h => by rw [h]⟩
  have hsymm : Std.Symm fun i j : Item => ¬ Alike i j :=
    ⟨fun i j h h' => h (target_inj.mp (@target_inj s j i |>.mpr h').symm)⟩
  unfold Apart ToldApart
  simp only [disjoint_iff, under_iff]
  constructor
  · rintro ⟨hpairs, hunder⟩
    refine ⟨hunder, fun i hi j hj halike => ?_⟩
    by_contra hne
    exact hpairs.forall hi hj (fun heq => hne ((hsame hi hj).mpr heq)) halike
  · rintro ⟨hunder, htold⟩
    refine ⟨hdistinct.of_map.pairwise_of_forall_ne fun i hi j hj hne halike => ?_, hunder⟩
    exact hne ((hsame hi hj).mp (htold i hi j hj halike))

/-- Two entries that `_safe` keeps apart. -/
theorem oak_and_pine_are_apart :
    Reads (smallPack "snow" ["Oak", "pine"]) fun s => Apart s (plan plainLib s).items := by
  have hread : Reads (smallPack "snow" ["Oak", "pine"]) fun s =>
      (∀ i ∈ (plan plainLib s).items, safe i.biomeId ≠ "..") ∧
        ∀ i ∈ (plan plainLib s).items, ∀ j ∈ (plan plainLib s).items,
          target s i = target s j → i.combination = j.combination :=
    reads_of_check (by decide +kernel)
  obtain ⟨s, hs, hstop, hdistinct, hunder, htold⟩ := hread
  refine ⟨s, hs, hstop, hdistinct, (outputs_apart_iff plainLib s hdistinct).mpr ⟨hunder, ?_⟩⟩
  exact fun i hi j hj halike => htold i hi j hj (target_inj.mpr halike)

/-- Two entries whose ids differ in a blank and in letter case get one file, and
a biome of two dots is the directory above. -/
theorem twins_share_a_file :
    Reads (smallPack "snow" ["Oak Tree", "oak_tree"])
        (fun s => ¬ Apart s (plan plainLib s).items) ∧
      Reads (smallPack ".." ["oak"]) (fun s => ¬ Apart s (plan plainLib s).items) := by
  constructor
  · have hsame : Reads (smallPack "snow" ["Oak Tree", "oak_tree"])
        fun s => ¬ ((plan plainLib s).items.map (target s)).Nodup :=
      reads_of_check (by decide +kernel)
    obtain ⟨s, hs, hstop, hdistinct, hnodup⟩ := hsame
    exact ⟨s, hs, hstop, hdistinct, fun h => hnodup h.nodup_targets⟩
  · have hparent : Reads (smallPack ".." ["oak"])
        fun s => ∃ i ∈ (plan plainLib s).items, safe i.biomeId = ".." :=
      reads_of_check (by decide +kernel)
    obtain ⟨s, hs, hstop, hdistinct, i, hi, hsafe⟩ := hparent
    exact ⟨s, hs, hstop, hdistinct, fun h => under_iff.mp (h.2 i hi) hsafe⟩

end image_gen.bundle_paths

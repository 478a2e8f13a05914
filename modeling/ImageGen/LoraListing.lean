-- The LoRA list beside the validator: the list advertises names, and a request
-- with one of them is to be resolved to the file that the list means.
import ImageGen.EvictFor
import ImageGen.FetchNames
import ImageGen.LoraScan

namespace image_gen.lora_listing

open image_gen.json image_gen.job_store image_gen.file_tree image_gen.lora_files
  image_gen.lora_scan image_gen.results
open image_gen.evict_for (nodup_rglob)
open image_gen.eviction (rglobSafetensors pathWithSuffix sidecarPath)
open image_gen.fetch_names (withSuffix_eq pathWithSuffix_append components_name)
open image_gen.requests (Rejection)

/-! ## The files and their names -/

def suffix : String := ".safetensors"

/-- An entry of the tree under the root that the list is to hold. -/
structure Listed (t : LoraTree) (root path : Path) : Prop where
  entry : t.node? path ≠ none
  under : ∃ above name, path = root ++ (above ++ [name]) ∧ suffix.toList <:+ name.toList
  regular : t.read path ≠ none
  inside : ∃ resolved, t.realpath path = some resolved ∧ root <+: resolved

def filenameOf (root path : Path) : String := asPosix (path.drop root.length)

def nameOf (root path : Path) : String := asPosix (pathWithSuffix (path.drop root.length) "")

/-- `LoraSpec` takes the name, and the validator resolves it to the file. -/
def Addressable (t : LoraTree) (lorasRoot : Path) (name : String) (path : Path) : Prop :=
  (∃ spec : LoraSpec, spec.name = name) ∧
    ∃ target, resolveName t lorasRoot "lora" name = .ok target ∧ t.realpath path = some target

/-- The list holds each file once, and says of each whether a request can name it. -/
structure Agrees (t : LoraTree) (lorasRoot root : Path) (metas : List LoraMeta) : Prop where
  scanned : scanLoras t lorasRoot = .ok metas
  once : (metas.map (·.filename)).Nodup
  files : ∀ filename, filename ∈ metas.map (·.filename) ↔
    ∃ path, Listed t root path ∧ filename = filenameOf root path
  addressable : ∀ m ∈ metas, ∀ path, Listed t root path → m.filename = filenameOf root path →
    (m.addressable = true ↔ Addressable t lorasRoot m.name path)

def ListingAgrees (t : LoraTree) (lorasRoot : Path) : Prop :=
  ∃ root metas, t.realpath lorasRoot = some root ∧ Agrees t lorasRoot root metas

/-- What the name of a file must not be. -/
structure PlainName (t : LoraTree) (root path : Path) : Prop where
  lineFeed : (nameOf root path).toList.getLast? ≠ some '\n'
  length : (nameOf root path).length ≤ 256
  /-- A file that is called by its suffix alone keeps it in the list. -/
  bare : path.getLast? = some suffix →
    t.realpath (path.dropLast ++ [suffix ++ suffix]) = t.realpath path

/-- A file that the list can hold: its sidecar can be read, and its name is plain
where it passes the pattern. -/
structure Fits (t : LoraTree) (root path : Path) : Prop where
  sidecar : ∀ contents, t.read (sidecarPath path) = some contents →
    contents.size ≤ sidecarMaxBytes → ∀ message, contents.text ≠ .unreadable message
  name : MatchesNameRe (nameOf root path) → PlainName t root path

/-! ## Names -/

theorem components_asPosix {parts : List String} (hne : parts ≠ [])
    (h : ∀ name ∈ parts, Component name) : components (asPosix parts) = parts := by
  have hsplit : (asPosix parts).toList.splitOn '/' = parts.map String.toList := by
    unfold asPosix
    rw [String.toList_intercalate]
    apply List.splitOn_intercalate
    · intro part hpart
      obtain ⟨name, hname, rfl⟩ := List.mem_map.mp hpart
      exact (h name hname).2.2.2
    · simpa using hne
  unfold components
  rw [hsplit, List.map_map]
  have hid : parts.map (String.ofList ∘ String.toList) = parts := by
    refine (List.map_congr_left fun name _ => ?_).trans (List.map_id parts)
    exact String.ofList_toList
  rw [hid, List.filter_eq_self]
  intro name hname
  simp [(h name hname).1, (h name hname).2.1]

/-- Two paths of names have two texts. -/
theorem asPosix_injective {p q : List String} (hp : p ≠ []) (hq : q ≠ [])
    (hps : ∀ name ∈ p, Component name) (hqs : ∀ name ∈ q, Component name)
    (h : asPosix p = asPosix q) : p = q := by
  rw [← components_asPosix hp hps, h, components_asPosix hq hqs]

theorem asPosix_concat (above : List String) (a b : String) :
    asPosix (above ++ [a]) ++ b = asPosix (above ++ [a ++ b]) := by
  unfold asPosix
  by_cases h : above = []
  · simp [h]
  · rw [String.intercalate_append_of_ne_nil h (by simp),
      String.intercalate_append_of_ne_nil h (by simp)]
    simp [String.append_assoc]

theorem head_asPosix {parts : List String} (hne : parts ≠ [])
    (h : ∀ name ∈ parts, Component name) : (asPosix parts).toList.head? ≠ some '/' := by
  cases parts with
  | nil => exact absurd rfl hne
  | cons name rest =>
    have hname := h name List.mem_cons_self
    obtain ⟨c, chars, hchars⟩ : ∃ c chars, name.toList = c :: chars := by
      apply List.exists_cons_of_ne_nil
      intro hnil
      exact hname.1 (String.toList_eq_nil_iff.mp hnil)
    have hc : c ≠ '/' := by
      rintro rfl
      apply hname.2.2.2
      rw [hchars]
      exact List.mem_cons_self
    unfold asPosix
    cases rest with
    | nil => simp [hchars, hc]
    | cons next rest => simp [String.intercalate_cons_cons, hchars, hc]

/-! ## A listed file -/

section Files

variable {t : LoraTree} {lorasRoot root path : Path}

/-- Where a listed file really stands. -/
theorem Listed.located (h : Listed t root path) : ∃ resolved, t.realpath path = some resolved ∧
    root <+: resolved ∧ t.isFile resolved = true := by
  obtain ⟨resolved, hresolved, hinside⟩ := h.inside
  obtain ⟨contents, hread⟩ := Option.ne_none_iff_exists'.mp h.regular
  obtain ⟨e, hlocate, hreal⟩ := read_located hread
  rw [hresolved, Option.some.injEq] at hreal
  subst hreal
  refine ⟨resolved, hresolved, hinside, ?_⟩
  have hnode : t.node? resolved = some (.file contents) := by
    unfold FileTree.read FileTree.stat at hread
    rw [hlocate, Option.bind_some] at hread
    split at hread
    · next content heq =>
      cases hread
      exact heq
    · cases hread
  unfold FileTree.isFile FileTree.stat
  rw [t.locate_file hnode, Option.bind_some, hnode]
  rfl

/-- The names below the root, with what is left of the last without the suffix. -/
theorem Listed.split (h : Listed t root path) : ∃ above stem,
    path = root ++ (above ++ [stem ++ suffix]) ∧ (∀ name ∈ above, Component name) ∧
      Component (stem ++ suffix) := by
  obtain ⟨above, name, hpath, ⟨stem, hstem⟩⟩ := h.under
  have hcomponents := t.component_of_node h.entry
  have hname : name = String.ofList stem ++ suffix := by
    apply String.toList_injective
    rw [String.toList_append, String.toList_ofList, hstem]
  subst hname
  refine ⟨above, _, hpath, fun name hname => ?_, ?_⟩
  · apply hcomponents
    rw [hpath]
    simp [hname]
  · apply hcomponents
    rw [hpath]
    simp

theorem withSuffix_suffix (stem : String) :
    withSuffix (stem ++ suffix) "" = if stem = "" then suffix else stem := by
  by_cases h : stem = ""
  · subst h
    rw [if_pos rfl]
    decide +kernel
  · have hne : stem.toList ≠ [] := fun hnil => h (String.toList_eq_nil_iff.mp hnil)
    have hwhole : stem ++ suffix = String.ofList (stem.toList ++ '.' :: "safetensors".toList) := by
      apply String.toList_injective
      rw [String.toList_append, String.toList_ofList]
      rfl
    rw [if_neg h, hwhole, withSuffix_eq "safetensors".toList hne (by decide) (by decide),
      String.ofList_toList, String.append_empty]

/-- Where the validator looks for the name that the list gives. -/
def aim (path : Path) : Path :=
  if path.getLast? = some suffix then path.dropLast ++ [suffix ++ suffix] else path

theorem joinPath_asPosix (root : Path) {above : List String} {last : String}
    (habove : ∀ name ∈ above, Component name) (hlast : Component (last ++ suffix)) :
    joinPath root (asPosix (above ++ [last]) ++ suffix) = root ++ (above ++ [last ++ suffix]) := by
  have hnames : ∀ name ∈ above ++ [last ++ suffix], Component name := by
    refine List.forall_mem_append.mpr ⟨habove, fun name hname => ?_⟩
    rw [List.mem_singleton.mp hname]
    exact hlast
  rw [asPosix_concat, joinPath, if_neg (head_asPosix (by simp) hnames),
    components_asPosix (by simp) hnames]

theorem joinPath_nameOf (h : Listed t root path) :
    joinPath root (nameOf root path ++ suffix) = aim path := by
  obtain ⟨above, stem, hpath, habove, hlast⟩ := h.split
  have hdrop : path.drop root.length = above ++ [stem ++ suffix] := by
    rw [hpath, List.drop_left]
  have hname : nameOf root path = asPosix (above ++ [withSuffix (stem ++ suffix) ""]) := by
    rw [nameOf, hdrop, pathWithSuffix_append]
  unfold aim
  rw [hname, withSuffix_suffix]
  by_cases hstem : stem = ""
  · subst hstem
    have hbare : path.getLast? = some suffix := by
      rw [hpath]
      simp
    have hparent : path.dropLast = root ++ above := by
      rw [hpath, ← List.append_assoc, List.dropLast_concat]
    rw [if_pos rfl, if_pos hbare, joinPath_asPosix root habove (by decide +kernel),
      hparent, List.append_assoc]
  · have hbare : path.getLast? ≠ some suffix := by
      rw [hpath, ← List.append_assoc, List.getLast?_concat, ne_eq, Option.some.injEq]
      intro heq
      apply hstem
      have hlength := congrArg String.length heq
      rw [String.length_append] at hlength
      apply String.length_eq_zero_iff.mp
      omega
    rw [if_neg hstem, if_neg hbare, joinPath_asPosix root habove hlast, hpath]

/-- The name leads to the file when the place that it aims at is the file. -/
theorem resolves_iff (hroot : t.realpath lorasRoot = some root) (h : Listed t root path) :
    (∃ target, resolveName t lorasRoot "lora" (nameOf root path) = .ok target ∧
      t.realpath path = some target) ↔ t.realpath (aim path) = t.realpath path := by
  obtain ⟨resolved, hresolved, hinside, hfile⟩ := h.located
  have hjoin := joinPath_nameOf h
  unfold suffix at hjoin
  unfold resolveName
  rw [hroot]
  dsimp only
  rw [hjoin, hresolved]
  constructor
  · rintro ⟨target, hok, htarget⟩
    cases htarget
    split at hok
    · cases hok
    · next found haim =>
      split_ifs at hok
      cases hok
      exact haim
  · intro haim
    rw [haim]
    dsimp only
    rw [if_neg (not_not.mpr hinside), if_neg (not_not.mpr hfile)]
    exact ⟨resolved, rfl, rfl⟩

theorem Listed.components_rest (h : Listed t root path) :
    path.drop root.length ≠ [] ∧ ∀ name ∈ path.drop root.length, Component name := by
  obtain ⟨above, stem, hpath, habove, hlast⟩ := h.split
  rw [hpath, List.drop_left]
  refine ⟨by simp, List.forall_mem_append.mpr ⟨habove, fun name hname => ?_⟩⟩
  rw [List.mem_singleton.mp hname]
  exact hlast

/-- A file name of the list means one file. -/
theorem filenameOf_injective {path' : Path} (h : Listed t root path) (h' : Listed t root path')
    (heq : filenameOf root path = filenameOf root path') : path = path' := by
  obtain ⟨above, name, hpath, -⟩ := h.under
  obtain ⟨above', name', hpath', -⟩ := h'.under
  have hrest := asPosix_injective h.components_rest.1 h'.components_rest.1 h.components_rest.2
    h'.components_rest.2 heq
  rw [hpath, hpath'] at hrest ⊢
  rw [List.drop_left, List.drop_left] at hrest
  rw [hrest]

end Files

/-! ## The scan -/

section Scan

variable {t : LoraTree} {lorasRoot root path : Path}

/-- An entry of the list is about a file. -/
structure About (root path : Path) (m : LoraMeta) : Prop where
  filename : m.filename = filenameOf root path
  name : m.name = nameOf root path
  addressable : m.addressable = (unaddressableReason m.name).isNone

/-- The paths under a directory that the scan looks at. -/
theorem mem_rglob_iff (hloc : t.locate root = some root) : path ∈ rglobSafetensors t root ↔
    t.node? path ≠ none ∧
      ∃ above name, path = root ++ (above ++ [name]) ∧ suffix.toList <:+ name.toList := by
  unfold rglobSafetensors
  rw [hloc]
  dsimp only
  rw [List.mem_filterMap]
  constructor
  · rintro ⟨e, he, hpath⟩
    split at hpath
    · next name hname =>
      split_ifs at hpath with hunder
      obtain ⟨⟨rest, hrest⟩, hne, hsuffix⟩ := hunder
      rw [← hrest, List.drop_left, Option.some.injEq] at hpath
      rcases List.eq_nil_or_concat rest with rfl | ⟨above, last, rfl⟩
      · exact absurd (by simpa using hrest) hne
      · rw [List.concat_eq_append] at hrest hpath
        have hlast : last = name := by
          rw [← hrest, ← List.append_assoc, List.getLast?_concat, Option.some.injEq] at hname
          exact hname
        subst hlast
        refine ⟨?_, above, last, hpath.symm, hsuffix⟩
        have hroot : e.1 ≠ [] := by
          rw [← hrest]
          simp
        rw [← hpath, hrest, (FileTree.node?_eq_some hroot).mpr he]
        nofun
    · cases hpath
  · rintro ⟨hnode, above, name, rfl, hsuffix⟩
    obtain ⟨node, hnode⟩ := Option.ne_none_iff_exists'.mp hnode
    refine ⟨_, (FileTree.node?_eq_some (by simp)).mp hnode, ?_⟩
    have hlast : (root ++ (above ++ [name])).getLast? = some name := by
      rw [← List.append_assoc, List.getLast?_concat]
    dsimp only
    rw [hlast]
    dsimp only
    rw [if_pos ⟨List.prefix_append _ _, by simp, hsuffix⟩, List.drop_left]

/-- A file has its entry, and what is no file of the list has none. -/
theorem scanOne_listed (h : Listed t root path)
    (hsidecar : ∃ sidecar, readSidecar t (sidecarPath path) = .ok sidecar) :
    ∃ m, scanOne t root path = .ok (some m) ∧ About root path m := by
  obtain ⟨contents, hread⟩ := Option.ne_none_iff_exists'.mp h.regular
  obtain ⟨resolved, hresolved, hinside⟩ := h.inside
  obtain ⟨sidecar, hsidecar⟩ := hsidecar
  simp only [scanOne, hread, hresolved, hinside, not_true_eq_false, if_false, hsidecar]
  exact ⟨_, rfl, rfl, rfl, rfl⟩

theorem scanOne_other (hloc : t.locate root = some root) (hpath : path ∈ rglobSafetensors t root)
    (h : ¬ Listed t root path) : scanOne t root path = .ok none := by
  obtain ⟨hentry, hunder⟩ := (mem_rglob_iff hloc).mp hpath
  unfold scanOne
  rcases hread : t.read path with _ | contents
  · rfl
  · obtain ⟨e, -, hreal⟩ := read_located hread
    have hout : ¬ root <+: e := by
      intro hinside
      exact h ⟨hentry, hunder, by rw [hread]; nofun, e, hreal, hinside⟩
    rw [hreal]
    dsimp only
    rw [if_pos hout]

/-- A resolved root that is a directory stands where it is. -/
theorem locate_root (hroot : t.realpath lorasRoot = some root) (hdir : t.isDir root = true) :
    t.locate root = some root := by
  have hself := FileTree.realpath_realpath hroot
  unfold FileTree.isDir FileTree.stat at hdir
  rcases hloc : t.locate root with _ | e
  · rw [hloc] at hdir
    cases hdir
  · rw [FileTree.realpath_of_locate hloc] at hself
    exact hself

/-- Files stand in a directory only. -/
theorem Listed.isDir (h : Listed t root path) : t.isDir root = true := by
  obtain ⟨above, name, hpath, -⟩ := h.under
  have hentry := h.entry
  rw [hpath] at hentry
  have hdir : t.isDirAt root = true := t.isDirAt_of_append (by simp) hentry
  have hloc : t.locate root = some root := FileTree.walk_dir true _ hdir
  unfold FileTree.isDir FileTree.stat
  rw [hloc, Option.bind_some]
  exact hdir

theorem readSidecar_ok_iff {p : Path} : (∃ sidecar, readSidecar t p = .ok sidecar) ↔
    ∀ contents, t.read p = some contents → contents.size ≤ sidecarMaxBytes →
      ∀ message, contents.text ≠ .unreadable message := by
  constructor
  · rintro ⟨sidecar, hok⟩ contents hread hsize message htext
    unfold readSidecar at hok
    rw [hread] at hok
    dsimp only at hok
    rw [if_neg (by omega), htext] at hok
    cases hok
  · exact readSidecar_total

/-- The scan gives one entry for each file of the list. -/
theorem scan_spec (hroot : t.realpath lorasRoot = some root)
    (hsidecars : ∀ path, Listed t root path →
      ∃ sidecar, readSidecar t (sidecarPath path) = .ok sidecar) :
    ∃ metas paths, scanLoras t lorasRoot = .ok metas ∧ paths.Nodup ∧
      (∀ path, path ∈ paths ↔ Listed t root path) ∧ List.Forall₂ (About root) paths metas := by
  classical
  unfold scanLoras
  rw [hroot]
  dsimp only
  by_cases hdir : t.isDir root = true
  · have hloc := locate_root hroot hdir
    rw [if_neg (not_not.mpr hdir)]
    obtain ⟨found, hfound, hall⟩ := mapM_forall₂ (P := Listed t root) (R := About root)
      (f := scanOne t root) (l := (rglobSafetensors t root).mergeSort fun a b => decide (a ≤ b))
      (fun path _ h => scanOne_listed h (hsidecars path h))
      (fun path hpath h => scanOne_other hloc (List.mem_mergeSort.mp hpath) h)
    refine ⟨found.reduceOption, _, by rw [hfound]; rfl, ?_, fun path => ?_, hall⟩
    · exact ((List.mergeSort_perm _ _).nodup_iff.mpr (nodup_rglob t root)).filter _
    · rw [List.mem_filter, List.mem_mergeSort, decide_eq_true_eq]
      constructor
      · exact fun h => h.2
      · exact fun h => ⟨(mem_rglob_iff hloc).mpr ⟨h.entry, h.under⟩, h⟩
  · rw [if_pos hdir]
    refine ⟨[], [], rfl, List.nodup_nil, fun path => ?_, List.Forall₂.nil⟩
    simp only [List.not_mem_nil, false_iff]
    exact fun h => hdir h.isDir

/-- A scan that returns has read every sidecar. -/
theorem sidecars_of_scan {metas : List LoraMeta} (hroot : t.realpath lorasRoot = some root)
    (hscan : scanLoras t lorasRoot = .ok metas) (h : Listed t root path) :
    ∃ sidecar, readSidecar t (sidecarPath path) = .ok sidecar := by
  have hdir := h.isDir
  have hloc := locate_root hroot hdir
  unfold scanLoras at hscan
  rw [hroot] at hscan
  dsimp only at hscan
  rw [if_neg (not_not.mpr hdir)] at hscan
  obtain ⟨found, hfound, -⟩ := map_ok hscan
  obtain ⟨one, hone⟩ := ok_of_mapM hfound path
    (List.mem_mergeSort.mpr ((mem_rglob_iff hloc).mpr ⟨h.entry, h.under⟩))
  obtain ⟨contents, hread⟩ := Option.ne_none_iff_exists'.mp h.regular
  obtain ⟨resolved, hresolved, hinside⟩ := h.inside
  simp only [scanOne, hread, hresolved, hinside, not_true_eq_false, if_false] at hone
  obtain ⟨sidecar, hsidecar, -⟩ := map_ok hone
  exact ⟨sidecar, hsidecar⟩

end Scan

/-! ## The list and the validator -/

section Main

variable {t : LoraTree} {lorasRoot root path : Path}

theorem reason_isNone_iff {name : String} :
    (unaddressableReason name).isNone = true ↔ MatchesNameRe name := by
  unfold unaddressableReason
  by_cases hempty : name = ""
  · subst hempty
    rw [if_pos rfl]
    decide +kernel
  · rw [if_neg hempty]
    by_cases hmatch : MatchesNameRe name
    · simp [hmatch]
    · simp [hmatch]

theorem spec_iff {name : String} :
    (∃ spec : LoraSpec, spec.name = name) ↔ MatchesPattern name ∧ name.length ≤ 256 := by
  constructor
  · rintro ⟨spec, rfl⟩
    exact ⟨spec.pattern, spec.maxLength⟩
  · rintro ⟨hpattern, hlength⟩
    exact ⟨⟨name, .nan, hpattern, hlength⟩, rfl⟩

/-- A name that passes the pattern of the validator has no line feed. -/
theorem matchesPattern_iff {name : String} :
    MatchesPattern name ↔ MatchesNameRe name ∧ name.toList.getLast? ≠ some '\n' := by
  have hfeed : MatchesPattern name → name.toList.getLast? ≠ some '\n' := by
    intro h hlast
    have hmem := List.mem_of_getLast? hlast
    unfold MatchesPattern at h
    split at h
    · next heq => exact h
    · next c cs heq =>
      rw [heq] at hmem
      rcases List.mem_cons.mp hmem with rfl | hmem
      · exact absurd h.1 (by decide)
      · exact absurd (h.2 _ hmem) (by decide)
  constructor
  · exact fun h => ⟨Or.inl h, hfeed h⟩
  · rintro ⟨hmatch | ⟨hlast, -⟩, hne⟩
    · exact hmatch
    · exact absurd hlast hne

/-- What the list says of a file is right when the name is plain. -/
theorem addressable_iff_fits (hroot : t.realpath lorasRoot = some root)
    (h : Listed t root path) :
    (MatchesNameRe (nameOf root path) ↔ Addressable t lorasRoot (nameOf root path) path) ↔
      (MatchesNameRe (nameOf root path) → PlainName t root path) := by
  have haim : t.realpath (aim path) = t.realpath path ↔ (path.getLast? = some suffix →
      t.realpath (path.dropLast ++ [suffix ++ suffix]) = t.realpath path) := by
    unfold aim
    by_cases hbare : path.getLast? = some suffix
    · simp [hbare]
    · simp [hbare]
  unfold Addressable
  rw [spec_iff, resolves_iff hroot h, matchesPattern_iff, haim]
  constructor
  · intro hagree hmatch
    obtain ⟨⟨⟨-, hfeed⟩, hlength⟩, hbare⟩ := hagree.mp hmatch
    exact ⟨hfeed, hlength, hbare⟩
  · intro hplain
    constructor
    · intro hmatch
      obtain ⟨hfeed, hlength, hbare⟩ := hplain hmatch
      exact ⟨⟨⟨hmatch, hfeed⟩, hlength⟩, hbare⟩
    · exact fun haddr => haddr.1.1.1

theorem filenames_eq {paths : List Path} {metas : List LoraMeta}
    (h : List.Forall₂ (About root) paths metas) :
    metas.map (·.filename) = paths.map (filenameOf root) := by
  induction h with
  | nil => rfl
  | cons hab _ ih => rw [List.map_cons, List.map_cons, hab.filename, ih]

/-- The entry of a file in a list that is what the scan gives. -/
theorem about_addressable {m : LoraMeta} (habout : About root path m) :
    (m.addressable = true ↔ Addressable t lorasRoot m.name path) ↔
      (MatchesNameRe (nameOf root path) ↔
        Addressable t lorasRoot (nameOf root path) path) := by
  rw [habout.addressable, reason_isNone_iff, habout.name]

/-- The list agrees with the validator exactly when each of its files fits. -/
theorem listing_agrees_iff (t : LoraTree) (lorasRoot : Path) : ListingAgrees t lorasRoot ↔
    ∃ root, t.realpath lorasRoot = some root ∧ ∀ path, Listed t root path → Fits t root path := by
  constructor
  · rintro ⟨root, metas, hroot, hagrees⟩
    have hsidecars : ∀ path, Listed t root path →
        ∃ sidecar, readSidecar t (sidecarPath path) = .ok sidecar :=
      fun path h => sidecars_of_scan hroot hagrees.scanned h
    obtain ⟨metas', paths, hscan, -, hpaths, hall⟩ := scan_spec hroot hsidecars
    cases hagrees.scanned.symm.trans hscan
    refine ⟨root, hroot, fun path h => ⟨readSidecar_ok_iff.mp (hsidecars path h), ?_⟩⟩
    obtain ⟨m, hm, habout⟩ := exists_of_forall₂ hall path ((hpaths path).mpr h)
    have haddr := hagrees.addressable m hm path h habout.filename
    exact (addressable_iff_fits hroot h).mp ((about_addressable habout).mp haddr)
  · rintro ⟨root, hroot, hfits⟩
    obtain ⟨metas, paths, hscan, hnodup, hpaths, hall⟩ := scan_spec hroot fun path h =>
      readSidecar_ok_iff.mpr (hfits path h).sidecar
    have hfilenames := filenames_eq hall
    refine ⟨root, metas, hroot, hscan, ?_, fun filename => ?_, fun m hm path h hname => ?_⟩
    · rw [hfilenames, List.nodup_map_iff_inj_on hnodup]
      intro path hpath path' hpath' heq
      exact filenameOf_injective ((hpaths path).mp hpath) ((hpaths path').mp hpath') heq
    · rw [hfilenames, List.mem_map]
      constructor
      · rintro ⟨path, hpath, rfl⟩
        exact ⟨path, (hpaths path).mp hpath, rfl⟩
      · rintro ⟨path, h, rfl⟩
        exact ⟨path, (hpaths path).mpr h, rfl⟩
    · obtain ⟨path', hpath', habout⟩ := exists_of_forall₂ hall.flip m hm
      have hsame : path' = path :=
        filenameOf_injective ((hpaths path').mp hpath') h (habout.filename.symm.trans hname)
      subst hsame
      exact (about_addressable habout).mpr
        ((addressable_iff_fits hroot h).mpr (hfits path' h).name)

end Main

/-! ## A file that is called by its suffix -/

/-- `LORAS_ROOT/a/.safetensors`, and nothing else. -/
def bareTree : LoraTree where
  entries := [(["loras"], .dir), (["loras", "a"], .dir),
    (["loras", "a", ".safetensors"], .file ⟨1, .malformed ""⟩)]
  nodup := by decide
  components := by decide +kernel
  parents := by decide

/-- The list advertises a name that no request is resolved with. -/
theorem a_bare_suffix_is_not_found :
    (scanLoras bareTree ["loras"]).toOption.map (fun metas =>
        metas.map fun m => (m.name, m.addressable)) = some [("a/.safetensors", true)] ∧
      (¬ ∃ target, resolveName bareTree ["loras"] "lora" "a/.safetensors" = .ok target) ∧
      ¬ ListingAgrees bareTree ["loras"] := by
  have hlist : (scanLoras bareTree ["loras"]).toOption.map (fun metas =>
      metas.map fun m => (m.name, m.filename, m.addressable)) =
        some [("a/.safetensors", "a/.safetensors", true)] := by
    decide +kernel
  have hnone : ¬ ∃ target,
      resolveName bareTree ["loras"] "lora" "a/.safetensors" = .ok target := by
    have hfails : (resolveName bareTree ["loras"] "lora" "a/.safetensors").toOption = none := by
      decide +kernel
    rintro ⟨target, hok⟩
    rw [hok] at hfails
    cases hfails
  have hlisted : Listed bareTree ["loras"] ["loras", "a", ".safetensors"] := by
    refine ⟨by decide, ⟨["a"], ".safetensors", rfl, List.suffix_refl _⟩, ?_, ?_⟩
    · have hread : (bareTree.read ["loras", "a", ".safetensors"]).isSome = true := by decide +kernel
      exact Option.isSome_iff_ne_none.mp hread
    · exact ⟨["loras", "a", ".safetensors"], by decide +kernel, ["a", ".safetensors"], rfl⟩
  refine ⟨by decide +kernel, hnone, ?_⟩
  rintro ⟨root, metas, hroot, hagrees⟩
  have hreal : bareTree.realpath ["loras"] = some ["loras"] := by decide +kernel
  rw [hreal, Option.some.injEq] at hroot
  subst hroot
  rw [hagrees.scanned] at hlist
  simp only [Except.toOption, Option.map_some, Option.some.injEq] at hlist
  obtain ⟨m, rest, rfl⟩ : ∃ m rest, metas = m :: rest := by
    apply List.exists_cons_of_ne_nil
    rintro rfl
    cases hlist
  simp only [List.map_cons, List.cons.injEq, Prod.mk.injEq] at hlist
  obtain ⟨⟨hname, hfilename, haddressable⟩, -⟩ := hlist
  have hfile : m.filename = filenameOf ["loras"] ["loras", "a", ".safetensors"] := by
    rw [hfilename]
    decide +kernel
  have haddr := (hagrees.addressable m List.mem_cons_self _ hlisted hfile).mp haddressable
  obtain ⟨-, target, hok, -⟩ := haddr
  rw [hname] at hok
  exact hnone ⟨target, hok⟩

end image_gen.lora_listing

-- The names of the fetcher's files: what a slug is made of, where the files of
-- a version stand, and that no two versions share one.
import ImageGen.CivitaiFetch
import ImageGen.LoraScan
import ImageGen.PyStr

namespace image_gen.fetch_names

open image_gen.civitai_fetch image_gen.file_tree image_gen.lora_files image_gen.py_str
open image_gen.eviction (pathWithSuffix sidecarPath)

/-- Every path that a fetch opens, renames or looks for. -/
def fetchPaths (lorasRoot : Path) (slug : String) (version : Int) : List Path :=
  let dest := destPath lorasRoot slug version
  let sidecar := sidecarPath dest
  [dest, sidecar, tmpPath dest, pathWithSuffix sidecar ".json.tmp"]

/-! ## Slugs -/

theorem mem_subRuns {p : Char → Bool} {inRun : Bool} {s : List Char} {c : Char}
    (h : c ∈ subRuns p inRun s) : c = '_' ∨ (c ∈ s ∧ p c = false) := by
  induction s generalizing inRun with
  | nil => cases h
  | cons d rest ih =>
    have hrest : ∀ {inRun : Bool}, c ∈ subRuns p inRun rest →
        c = '_' ∨ (c ∈ d :: rest ∧ p c = false) := by
      intro inRun hmem
      exact (ih hmem).imp_right fun h => ⟨List.mem_cons_of_mem d h.1, h.2⟩
    unfold subRuns at h
    by_cases hd : p d = true
    · rw [if_pos hd] at h
      cases inRun with
      | true => exact hrest h
      | false =>
        rcases List.mem_cons.mp h with rfl | h
        · exact Or.inl rfl
        · exact hrest h
    · rw [if_neg hd] at h
      rcases List.mem_cons.mp h with rfl | h
      · exact Or.inr ⟨List.mem_cons_self, by simpa using hd⟩
      · exact hrest h

theorem mem_stripSeparators {s : List Char} {c : Char} (h : c ∈ stripSeparators s) : c ∈ s := by
  have hsub := (List.dropWhile_suffix _).subset (List.mem_reverse.mp h)
  exact (List.dropWhile_suffix _).subset (List.mem_reverse.mp hsub)

theorem slug_chars (filename : String) : ∀ c ∈ (sanitizeSlug filename).toList, slugChar c := by
  intro c hc
  unfold sanitizeSlug at hc
  dsimp only at hc
  split at hc
  · revert c
    decide
  · rw [String.toList_ofList] at hc
    rcases mem_subRuns (mem_stripSeparators hc) with rfl | ⟨hclean, -⟩
    · decide
    · rcases mem_subRuns hclean with rfl | ⟨-, hchar⟩
      · decide
      · simpa using hchar

/-! ## Versions -/

theorem int_toString (v : Int) :
    (toString v).toList = if 0 ≤ v then (toString v.toNat).toList
      else '-' :: (toString (-v).toNat).toList := by
  rw [Int.toString_eq_repr, Int.repr_eq_if]
  split <;> simp

theorem version_chars (v : Int) : ∀ c ∈ (toString v).toList, c = '-' ∨ c.isDigit = true := by
  intro c hc
  rw [int_toString] at hc
  split at hc
  · exact Or.inr ((toString_digits _).2 c hc)
  · rcases List.mem_cons.mp hc with rfl | hc
    · exact Or.inl rfl
    · exact Or.inr ((toString_digits _).2 c hc)

theorem version_injective {v v' : Int} (h : (toString v).toList = (toString v').toList) :
    v = v' := by
  have hdash : ∀ (n m : Nat), (toString n).toList ≠ '-' :: (toString m).toList := by
    intro n m heq
    have hdigit := (toString_digits n).2 '-' (by rw [heq]; exact List.mem_cons_self)
    revert hdigit
    decide
  rw [int_toString, int_toString] at h
  by_cases hv : 0 ≤ v <;> by_cases hv' : 0 ≤ v' <;> simp only [hv, hv', if_true, if_false] at h
  · have := toString_injective h
    omega
  · exact absurd h (hdash _ _)
  · exact absurd h.symm (hdash _ _)
  · have := toString_injective (List.cons.inj h).2
    omega

theorem slugChar_of_version {c : Char} (h : c = '-' ∨ c.isDigit = true) : slugChar c = true := by
  rcases h with rfl | h
  · decide
  · simp [slugChar, Char.isAlphanum, h]

/-! ## Stems -/

theorem stem_toList (slug : String) (version : Int) :
    (stem slug version).toList = slug.toList ++ '_' :: (toString version).toList := by
  simp [stem]

theorem stem_chars (filename : String) (version : Int) :
    ∀ c ∈ (stem (sanitizeSlug filename) version).toList, slugChar c := by
  intro c hc
  rw [stem_toList] at hc
  rcases List.mem_append.mp hc with hc | hc
  · exact slug_chars filename c hc
  · rcases List.mem_cons.mp hc with rfl | hc
    · decide
    · exact slugChar_of_version (version_chars version c hc)

/-- The last underscore of a stem stands before the version. -/
theorem stem_injective {slug slug' : String} {v v' : Int}
    (h : (stem slug v).toList = (stem slug' v').toList) : slug = slug' ∧ v = v' := by
  have hfree : ∀ (v : Int), '_' ∉ (toString v).toList := by
    intro v hmem
    rcases version_chars v '_' hmem with heq | hdigit
    · revert heq
      decide
    · revert hdigit
      decide
  rw [stem_toList, stem_toList] at h
  rcases List.append_eq_append_iff.mp h with ⟨mid, hslug, htail⟩ | ⟨mid, hslug, htail⟩
  · rcases mid with _ | ⟨c, mid⟩
    · rw [List.append_nil] at hslug
      exact ⟨(String.toList_injective hslug).symm, version_injective (List.cons.inj htail).2⟩
    · rw [List.cons_append] at htail
      refine absurd ?_ (hfree v)
      rw [(List.cons.inj htail).2]
      simp
  · rcases mid with _ | ⟨c, mid⟩
    · rw [List.append_nil] at hslug
      exact ⟨String.toList_injective hslug, (version_injective (List.cons.inj htail).2).symm⟩
    · rw [List.cons_append] at htail
      refine absurd ?_ (hfree v')
      rw [(List.cons.inj htail).2]
      simp

/-! ## Suffixes -/

theorem withSuffix_eq {s : List Char} (suffix : List Char) (hs : s ≠ []) (hne : suffix ≠ [])
    (hdot : '.' ∉ suffix) (new : String) :
    withSuffix (String.ofList (s ++ '.' :: suffix)) new = String.ofList s ++ new := by
  have hback : (s ++ '.' :: suffix).reverse.takeWhile (· ≠ '.') = suffix.reverse := by
    rw [List.reverse_append, List.reverse_cons, List.append_assoc,
      List.takeWhile_append_of_pos]
    · simp
    · intro c hc
      have hmem := List.mem_reverse.mp hc
      simpa using fun heq : c = '.' => hdot (heq ▸ hmem)
  have hlength : 0 < s.length := List.length_pos_iff.mpr hs
  unfold withSuffix
  simp only [String.toList_ofList, hback]
  rw [if_pos]
  · congr 2
    rw [List.length_append, List.length_cons, List.length_reverse]
    have htake : s.length + (suffix.length + 1) - suffix.length - 1 = s.length := by omega
    rw [htake, List.take_left]
  · refine ⟨by simp, by simpa using hne, ?_⟩
    rw [List.length_append, List.length_cons, List.length_reverse]
    omega

/-- The suffixes of the four files of a version. -/
def suffixes : List String := [".safetensors", ".json", ".safetensors.tmp", ".json.tmp"]

def civitaiDir (lorasRoot : Path) : Path := lorasRoot ++ ["civitai"]

def filePath (lorasRoot : Path) (slug : String) (version : Int) (suffix : String) : Path :=
  civitaiDir lorasRoot ++ [stem slug version ++ suffix]

theorem stem_ne_nil (slug : String) (version : Int) : (stem slug version).toList ≠ [] := by
  simp [stem_toList]

theorem withSuffix_stem (slug : String) (version : Int) (new : String) :
    withSuffix (stem slug version ++ ".safetensors") new = stem slug version ++ new ∧
      withSuffix (stem slug version ++ ".json") new = stem slug version ++ new := by
  have hsplit : ∀ suffix : List Char, stem slug version ++ String.ofList ('.' :: suffix) =
      String.ofList ((stem slug version).toList ++ '.' :: suffix) := by
    intro suffix
    apply String.toList_injective
    simp
  constructor
  · have h := withSuffix_eq "safetensors".toList (stem_ne_nil slug version)
      (by decide) (by decide) new
    rw [← hsplit, String.ofList_toList] at h
    exact h
  · have h := withSuffix_eq "json".toList (stem_ne_nil slug version)
      (by decide) (by decide) new
    rw [← hsplit, String.ofList_toList] at h
    exact h

/-! ## Paths -/

section Paths

variable (lorasRoot : Path) (slug : String) (version : Int)

theorem destPath_eq : destPath lorasRoot slug version =
    filePath lorasRoot slug version ".safetensors" := by
  simp [destPath, filePath, civitaiDir]

theorem pathWithSuffix_append (dir : Path) (name new : String) :
    pathWithSuffix (dir ++ [name]) new = dir ++ [withSuffix name new] := by
  simp [pathWithSuffix]

theorem sidecarPath_eq : sidecarPath (destPath lorasRoot slug version) =
    filePath lorasRoot slug version ".json" := by
  rw [destPath_eq, filePath, sidecarPath, pathWithSuffix_append, (withSuffix_stem _ _ _).1]
  rfl

theorem tmpPath_eq : tmpPath (destPath lorasRoot slug version) =
    filePath lorasRoot slug version ".safetensors.tmp" := by
  rw [destPath_eq, filePath, tmpPath, pathWithSuffix_append, (withSuffix_stem _ _ _).1]
  rfl

theorem sidecarTmp_eq :
    pathWithSuffix (filePath lorasRoot slug version ".json") ".json.tmp" =
      filePath lorasRoot slug version ".json.tmp" := by
  rw [filePath, pathWithSuffix_append, (withSuffix_stem _ _ _).2]
  rfl

theorem fetchPaths_eq :
    fetchPaths lorasRoot slug version = suffixes.map (filePath lorasRoot slug version) := by
  unfold fetchPaths
  dsimp only
  rw [sidecarPath_eq, sidecarTmp_eq, tmpPath_eq, destPath_eq]
  rfl

end Paths

/-- None of the four suffixes ends another one. -/
theorem suffix_unique : ∀ x ∈ suffixes, ∀ y ∈ suffixes, x.toList <:+ y.toList → x = y := by
  decide

theorem filePath_injective {lorasRoot : Path} {slug slug' x y : String} {v v' : Int}
    (hx : x ∈ suffixes) (hy : y ∈ suffixes)
    (h : filePath lorasRoot slug v x = filePath lorasRoot slug' v' y) :
    slug = slug' ∧ v = v' ∧ x = y := by
  have hname : stem slug v ++ x = stem slug' v' ++ y := by
    simpa [filePath] using h
  have hchars : (stem slug v).toList ++ x.toList = (stem slug' v').toList ++ y.toList := by
    rw [← String.toList_append, ← String.toList_append, hname]
  have hsuffix : x = y := by
    have hends : x.toList <:+ (stem slug' v').toList ++ y.toList :=
      hchars ▸ List.suffix_append _ _
    rcases List.suffix_or_suffix_of_suffix hends (List.suffix_append _ _) with hxy | hyx
    · exact suffix_unique x hx y hy hxy
    · exact (suffix_unique y hy x hx hyx).symm
  subst hsuffix
  obtain ⟨hslug, hversion⟩ := stem_injective (List.append_cancel_right hchars)
  exact ⟨hslug, hversion, rfl⟩

theorem fetchPaths_nodup (lorasRoot : Path) (slug : String) (version : Int) :
    (fetchPaths lorasRoot slug version).Nodup := by
  rw [fetchPaths_eq]
  refine (List.nodup_map_iff_inj_on (by decide)).mpr fun x hx y hy hxy => ?_
  exact (filePath_injective hx hy hxy).2.2

theorem fetchPaths_disjoint (lorasRoot : Path) {slug slug' : String} {v v' : Int}
    (h : (slug, v) ≠ (slug', v')) :
    (fetchPaths lorasRoot slug v).Disjoint (fetchPaths lorasRoot slug' v') := by
  rw [fetchPaths_eq, fetchPaths_eq]
  intro p hp hp'
  obtain ⟨x, hx, rfl⟩ := List.mem_map.mp hp
  obtain ⟨y, hy, heq⟩ := List.mem_map.mp hp'
  obtain ⟨rfl, rfl, -⟩ := filePath_injective hy hx heq
  exact h rfl

/-! ## The directory -/

theorem component_of_chars {name : String} (h : '_' ∈ name.toList) (hslash : '/' ∉ name.toList) :
    Component name := by
  refine ⟨?_, ?_, ?_, hslash⟩ <;> rintro rfl <;> revert h <;> decide

theorem slash_not_mem_stem (filename : String) (version : Int) {suffix : String}
    (h : suffix ∈ suffixes) : '/' ∉ (stem (sanitizeSlug filename) version ++ suffix).toList := by
  have hsuffix : ∀ x ∈ suffixes, '/' ∉ x.toList := by decide
  rw [String.toList_append, List.mem_append, not_or]
  refine ⟨fun hmem => ?_, hsuffix suffix h⟩
  have hchar := stem_chars filename version '/' hmem
  revert hchar
  decide

theorem component_stem (filename : String) (version : Int) (suffix : String)
    (h : suffix ∈ suffixes) : Component (stem (sanitizeSlug filename) version ++ suffix) := by
  refine component_of_chars ?_ (slash_not_mem_stem filename version h)
  simp [stem_toList]

theorem components_name {name : String} (h : Component name) : components name = [name] := by
  simp [components, List.splitOn_eq_singleton h.2.2.2, h.1, h.2.1]

theorem head_ne_slash {name : String} (h : Component name) : name.toList.head? ≠ some '/' :=
  fun hhead => h.2.2.2 (List.mem_of_mem_head? hhead)

/-- `loras_root / "civitai" / name` is the name in the directory. -/
theorem joinPath_dest (lorasRoot : Path) (filename : String) (version : Int) :
    joinPath (joinPath lorasRoot "civitai")
        (stem (sanitizeSlug filename) version ++ ".safetensors") =
      destPath lorasRoot (sanitizeSlug filename) version := by
  have hname := component_stem filename version ".safetensors" (by decide)
  have hdir : joinPath lorasRoot "civitai" = civitaiDir lorasRoot := by
    rw [joinPath, if_neg (by decide), components_name (by decide)]
    rfl
  rw [hdir, joinPath, if_neg (head_ne_slash hname), components_name hname, destPath_eq]
  rfl

/-! ## The canonical name -/

theorem nameChar_of_slugChar {c : Char} (h : slugChar c = true) : nameChar c = true := by
  simp only [slugChar, Bool.or_eq_true, decide_eq_true_eq] at h
  simp only [nameChar, leadingChar, Bool.or_eq_true, decide_eq_true_eq]
  tauto

theorem canonicalName_toList (slug : String) (version : Int) :
    (canonicalName slug version).toList =
      'c' :: (['i', 'v', 'i', 't', 'a', 'i', '/'] ++ (stem slug version).toList) := by
  simp [canonicalName]

theorem canonicalName_pattern {filename name : String} {version : Int}
    (h : canonicalName (sanitizeSlug filename) version = name) : MatchesPattern name := by
  have hdir : ∀ c ∈ ['i', 'v', 'i', 't', 'a', 'i', '/'], nameChar c = true := by decide
  unfold MatchesPattern
  rw [← h, canonicalName_toList]
  refine ⟨by decide, fun c hc => ?_⟩
  rcases List.mem_append.mp hc with hc | hc
  · exact hdir c hc
  · exact nameChar_of_slugChar (stem_chars filename version c hc)

theorem components_canonicalName (filename : String) (version : Int) :
    components (canonicalName (sanitizeSlug filename) version ++ ".safetensors") =
      ["civitai", stem (sanitizeSlug filename) version ++ ".safetensors"] := by
  have hname := component_stem filename version ".safetensors" (by decide)
  have hsplit : (canonicalName (sanitizeSlug filename) version ++ ".safetensors").toList =
      "civitai".toList ++
        '/' :: (stem (sanitizeSlug filename) version ++ ".safetensors").toList := by
    simp [canonicalName]
  unfold components
  rw [hsplit, List.splitOn_append_cons_self_of_not_mem (by decide),
    List.splitOn_eq_singleton hname.2.2.2]
  simp [hname.1, hname.2.1]

end image_gen.fetch_names

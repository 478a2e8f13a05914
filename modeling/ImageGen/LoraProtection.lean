-- What eviction protects. The recheck looks a candidate up by its canonical
-- name in the top-level `loras` lists of the live rows, while the validator
-- resolves names of any spelling, video payloads and registry defaults.
import ImageGen.LoraListing

namespace image_gen.lora_protection

open image_gen.json image_gen.job_store image_gen.requests image_gen.file_tree
open image_gen.lora_files image_gen.eviction image_gen.runs
open image_gen.evict_for (of_select_ok withSuffix_json_ne)
open image_gen.fetch_names (pathWithSuffix_append)
open image_gen.lora_listing (joinPath_asPosix withSuffix_suffix)

/-! ## The protected names -/

/-- A live row lists the name. -/
def Listed (s : Store) (name : String) : Prop :=
  ∃ j ∈ s, ¬ j.status.Terminal ∧ ∃ body, j.inputJson = .value body ∧ name ∈ bodyLoras body

theorem mem_collectNames {inputs : List StoredJson} {names : List String}
    (h : collectNames inputs = .ok names) (name : String) :
    name ∈ names ↔ ∃ body, .value body ∈ inputs ∧ name ∈ bodyLoras body := by
  induction inputs generalizing names with
  | nil =>
    cases h
    simp
  | cons input rest ih =>
    cases input with
    | value body =>
      rcases hrest : collectNames rest with e | tail <;> rw [collectNames, hrest] at h
      · cases h
      cases h
      simp [ih hrest, or_and_right, exists_or]
    | malformed m => simpa using ih h
    | unreadable m => cases h

theorem mem_nonTerminalLoraNames {s : Store} {names : List String}
    (h : nonTerminalLoraNames s = .ok names) (name : String) :
    name ∈ names ↔ Listed s name := by
  rw [mem_collectNames h]
  constructor
  · intro hname
    obtain ⟨body, hbody, hmem⟩ := hname
    obtain ⟨j, hj, hinput⟩ := List.mem_map.mp hbody
    have hlive := List.mem_filter.mp hj
    exact ⟨j, hlive.1, by simpa using hlive.2, body, hinput, hmem⟩
  · intro hlisted
    obtain ⟨j, hj, hlive, body, hinput, hmem⟩ := hlisted
    exact ⟨body, List.mem_map.mpr ⟨j, List.mem_filter.mpr ⟨hj, by simpa using hlive⟩, hinput⟩, hmem⟩

theorem exists_of_mapM {β γ : Type} {f : β → Option γ} {l : List β} {out : List γ}
    (h : l.mapM f = some out) {c : γ} (hc : c ∈ out) : ∃ b ∈ l, f b = some c := by
  induction l generalizing out with
  | nil =>
    cases h
    cases hc
  | cons b rest ih =>
    rw [List.mapM_cons] at h
    rcases hb : f b with _ | head <;> rw [hb] at h
    · cases h
    rcases hrest : rest.mapM f with _ | tail <;> rw [hrest] at h
    · cases h
    cases h
    rcases List.mem_cons.mp hc with rfl | hc
    · exact ⟨b, List.mem_cons_self, hb⟩
    · obtain ⟨d, hd, hfd⟩ := ih hrest hc
      exact ⟨d, List.mem_cons_of_mem b hd, hfd⟩

theorem ofJson_some {v : Validator} {item : Json} {spec : LoraSpec}
    (h : LoraSpec.ofJson v item = some spec) :
    ∃ entry, item = .obj entry ∧ Json.get entry "name" = .str spec.name := by
  cases item with
  | obj entry =>
    refine ⟨entry, rfl, ?_⟩
    by_cases hkeys : ∀ f ∈ entry, f.1 ∈ ["name", "weight"]
    · rw [LoraSpec.ofJson, if_pos hkeys] at h
      split at h
      · rename_i name weight hname hweight
        obtain ⟨w, hw, hspec⟩ := Option.bind_eq_some_iff.mp h
        split at hspec
        · cases hspec
          simp [Json.get, hname]
        · cases hspec
      · cases h
    · rw [LoraSpec.ofJson, if_neg hkeys] at h
      cases h
  | null => cases h
  | bool _ => cases h
  | int _ => cases h
  | float _ => cases h
  | str _ => cases h
  | arr _ => cases h

/-- The two parsers agree on an image body: what the validator resolves, the
protection query lists. -/
theorem image_references_listed {v : Validator} {raw : Json} {r : String × String}
    (h : r ∈ references v .image raw) : r.2 ∈ bodyLoras raw := by
  unfold references at h
  rcases hbody : generateRequest v raw with _ | req
  · simp [hbody] at h
  · simp only [hbody, Option.map_some, Option.getD_some] at h
    obtain ⟨spec, hspec, rfl⟩ := List.mem_map.mp h
    obtain ⟨fields, rfl, hkeys⟩ := parseBody_some hbody
    rw [generateRequest, parseBody, if_pos hkeys] at hbody
    split at hbody
    · cases hbody
      cases hspec
    · rename_i model items hmodel hloras
      split at hbody
      on_goal 2 => cases hbody
      obtain ⟨loras, hmapM, rfl⟩ := Option.map_eq_some_iff.mp hbody
      obtain ⟨item, hitem, hof⟩ := exists_of_mapM hmapM hspec
      obtain ⟨entry, rfl, hname⟩ := ofJson_some hof
      simp only [bodyLoras, hloras]
      apply List.mem_filterMap.mpr
      exact ⟨_, hitem, by simp [hname]⟩
    · cases hbody

/-- A live image job lists every name that it resolves, in its own spelling. -/
theorem listed_of_image {v : Validator} {s : Store} {j : Job} {raw : Json} {r : String × String}
    (hj : j ∈ s) (hlive : ¬ j.status.Terminal) (hinput : j.inputJson = .value raw)
    (hr : r ∈ references v .image raw) : Listed s r.2 :=
  ⟨j, hj, hlive, raw, hinput, image_references_listed hr⟩

/-! ## Canonical names -/

/-- The name is a path of plain names: none is empty, a dot or two dots. -/
def Canonical (name : String) : Prop :=
  ∃ parts ≠ [], (∀ part ∈ parts, Component part) ∧ name = asPosix parts

theorem component_suffix {last : String} (h : Component last) :
    Component (last ++ ".safetensors") := by
  have hlength : 12 ≤ (last ++ ".safetensors").length := by
    rw [String.length_append]
    exact Nat.le_add_left 12 _
  refine ⟨?_, ?_, ?_, ?_⟩
  · intro heq
    exact absurd (heq ▸ hlength) (by decide)
  · intro heq
    exact absurd (heq ▸ hlength) (by decide)
  · intro heq
    exact absurd (heq ▸ hlength) (by decide)
  · rw [String.toList_append, List.mem_append, not_or]
    exact ⟨h.2.2.2, by decide⟩

/-- The file that a canonical name stands for. -/
theorem Canonical.file {name : String} (h : Canonical name) (root : Path) :
    ∃ above last, joinPath root (name ++ ".safetensors") =
        root ++ (above ++ [last ++ ".safetensors"]) ∧
      last ≠ "" ∧ name = asPosix (above ++ [last]) := by
  obtain ⟨parts, hne, hparts, rfl⟩ := h
  obtain ⟨above, last, rfl⟩ := List.eq_nil_or_concat' parts |>.resolve_left hne
  have hlast : Component last := hparts last (by simp)
  have habove : ∀ part ∈ above, Component part := fun part hpart => hparts part (by simp [hpart])
  exact ⟨above, last, joinPath_asPosix root habove (component_suffix hlast), hlast.1, rfl⟩

/-- Eviction gives the file of a canonical name that very name. -/
theorem canonicalName_file {cfg : Setting} {name : String} (h : Canonical name) :
    cfg.canonicalName (joinPath cfg.lorasRoot (name ++ ".safetensors")) = name := by
  obtain ⟨above, last, hjoin, hne, hname⟩ := h.file cfg.lorasRoot
  unfold Setting.canonicalName
  have hsuffix := withSuffix_suffix last
  rw [if_neg hne] at hsuffix
  rw [hjoin, List.drop_left, pathWithSuffix_append, hname]
  exact congrArg (fun stem => asPosix (above ++ [stem])) hsuffix

/-! ## Steps -/

/-- A live job needs the file. -/
def NeededLive (cfg : Setting) (s : State) (file : Path) : Prop :=
  ∃ j ∈ s.store, ¬ j.status.Terminal ∧ Needs cfg.toValidator s.tree j file

/-- A live image job asks for the file by its canonical name, and no link leads
there. -/
def AskedPlainly (cfg : Setting) (s : State) (file : Path) : Prop :=
  ∃ j ∈ s.store, ¬ j.status.Terminal ∧ ∃ raw, storedRequest j.inputJson = some (.image, raw) ∧
    ∃ r ∈ references cfg.toValidator .image raw,
      resolveName s.tree cfg.lorasRoot r.1 r.2 = .ok file ∧ Canonical r.2 ∧
        s.tree.Straight (joinPath cfg.lorasRoot (r.2 ++ ".safetensors"))

/-- The step unlinks no file that a live job needs. -/
def Spares (cfg : Setting) (s : State) (l : Label) : Prop :=
  ∀ s', next cfg s l = some s' → ∀ file, s.tree.node? file ≠ none →
    s'.tree.node? file = none → ¬ NeededLive cfg s file

/-- No job is created between the SELECT of a recheck and what follows it. -/
def CreatesBeforeQuery (s : State) : Label → Prop
  | .create _ _ _ =>
    match s.pc with
    | .rechecked _ _ _ _ => False
    | _ => True
  | _ => True

/-- Where the unlinks of a candidate take a file that a live job needs, no link
leads to the candidate, and a live image job asks for that file plainly: not in
the payload of a video, not by a default of the model, not in another spelling
and not through a link. -/
def NeededPlainly (cfg : Setting) (s : State) : Label → Prop
  | .resume _ refused =>
    match s.pc with
    | .rechecked _ c _ _ =>
      ∀ u, evict s.tree refused c = some u → ∀ file, s.tree.node? file ≠ none →
        u.node? file = none → NeededLive cfg s file →
        s.tree.Straight c.path.dropLast ∧ AskedPlainly cfg s file
    | _ => True
  | _ => True

theorem storedRequest_image {input : StoredJson} {raw : Json}
    (h : storedRequest input = some (.image, raw)) : input = .value raw := by
  unfold storedRequest at h
  split at h
  · split at h
    · split at h <;> cases h
    · cases h
      rfl
  · cases h
    rfl
  · cases h

/-- What is asked for plainly is the file of a canonical name that is listed. -/
theorem AskedPlainly.listed {cfg : Setting} {s : State} {file : Path}
    (h : AskedPlainly cfg s file) : ∃ name, Canonical name ∧
      file = joinPath cfg.lorasRoot (name ++ ".safetensors") ∧ Listed s.store name := by
  obtain ⟨j, hj, hlive, raw, hinput, r, hr, hfile, hcanonical, hstraight⟩ := h
  obtain ⟨root, hroot, -, -, hreal⟩ := resolveName_ok hfile
  obtain ⟨above, last, hjoin, -, -⟩ := hcanonical.file cfg.lorasRoot
  have hsame : root = cfg.lorasRoot := by
    have hprefix : s.tree.Straight cfg.lorasRoot := (hjoin ▸ hstraight).of_append
    rw [FileTree.realpath_straight hprefix] at hroot
    exact (Option.some.inj hroot).symm
  rw [hsame, FileTree.realpath_straight hstraight, Option.some.injEq] at hreal
  exact ⟨r.2, hcanonical, hreal.symm, listed_of_image hj hlive (storedRequest_image hinput) hr⟩

/-- The file of a canonical name is no sidecar. -/
theorem Canonical.ne_sidecar {name : String} (h : Canonical name) (root path : Path) :
    joinPath root (name ++ ".safetensors") ≠ sidecarPath path := by
  intro heq
  obtain ⟨above, last, hjoin, -, -⟩ := h.file root
  have hlast := congrArg List.getLast? (hjoin.symm.trans heq)
  rw [← List.append_assoc, List.getLast?_concat] at hlast
  rcases List.eq_nil_or_concat' path with rfl | ⟨front, other, rfl⟩
  · simp [sidecarPath, pathWithSuffix] at hlast
  · rw [sidecarPath, pathWithSuffix_append, List.getLast?_concat, Option.some.injEq] at hlast
    have hsuffix : ".safetensors".toList <:+ (last ++ ".safetensors").toList := by
      rw [String.toList_append]
      exact List.suffix_append _ _
    exact withSuffix_json_ne hsuffix hlast.symm

/-- The candidates carry the names of their files. -/
def CandidatesNamed (cfg : Setting) : Pc → Prop
  | .rechecking _ c rest => ∀ d ∈ c :: rest, d.canonicalName = cfg.canonicalName d.path
  | .rechecked _ c rest _ => ∀ d ∈ c :: rest, d.canonicalName = cfg.canonicalName d.path
  | _ => True

/-- The last answer of the protection query holds every name that is listed. -/
def AnswerHolds (s : State) : Prop :=
  s.store.Keyed ∧
    match s.pc with
    | .rechecked _ _ _ names => ∀ name, Listed s.store name → name ∈ names
    | _ => True

/-- What the states of a call keep. -/
structure Sound (cfg : Setting) (s : State) : Prop where
  answer : AnswerHolds s
  candidates : CandidatesNamed cfg s.pc

/-- A tree that keeps every entry. -/
def Keeps (t u : LoraTree) : Prop := ∀ p, t.node? p ≠ none → u.node? p ≠ none

theorem keeps_touchLastUsed (t : LoraTree) (sidecar : Path) (iso : String) (size : Nat) :
    Keeps t (touchLastUsed t sidecar iso size) := by
  intro p hp
  unfold touchLastUsed
  split
  · split
    · exact t.node?_replace_ne_none _ _ hp
    · exact hp
  · exact hp

theorem loop_not_rechecked (p : Progress) (cs : List Candidate) :
    ∀ q c rest names, loop p cs ≠ .rechecked q c rest names := by
  intro q c rest names h
  unfold loop at h
  split at h
  · cases cs <;> cases h
  · cases h

theorem start_not_rechecked (cfg : Setting) (t : LoraTree) :
    ∀ q c rest names, start cfg t ≠ .rechecked q c rest names := by
  intro q c rest names h
  simp only [start] at h
  split at h
  · cases h
  · split at h <;> cases h

/-- A write brings no name into the live rows. -/
theorem listed_of_apply {s t : Store} {now : Nat} {w : Write} {name : String} (hs : s.Keyed)
    (h : w.apply s now = .ok t) (hname : Listed t name) : Listed s name := by
  obtain ⟨j, hj, hlive, body, hinput, hmem⟩ := hname
  obtain ⟨old, hold, hsame, hterm⟩ := Write.mem_apply hs h hj
  exact ⟨old, hold, fun ht => hlive (hterm ht), body, hsame ▸ hinput, hmem⟩

theorem answerHolds_of_not_rechecked {s : State} (hs : s.store.Keyed)
    (hpc : ∀ q c rest names, s.pc ≠ .rechecked q c rest names) : AnswerHolds s := by
  refine ⟨hs, ?_⟩
  split
  · rename_i q c rest names heq
    exact absurd heq (hpc q c rest names)
  · trivial

theorem answerHolds_readRows {s : State} {pc : Pc} (hs : s.store.Keyed)
    (h : readRows s = some pc) : AnswerHolds { s with pc := pc } := by
  refine ⟨hs, ?_⟩
  unfold readRows at h
  rcases hnames : nonTerminalLoraNames s.store with e | names <;> simp only [hnames] at h
  · split at h <;> cases h <;> trivial
  · split at h
    · cases h
      trivial
    · cases h
      exact fun name hname => (mem_nonTerminalLoraNames hnames name).mpr hname
    · cases h

/-- After `resume` the call is at another await. -/
theorem resume_not_rechecked {cfg : Setting} {s s' : State} {now : Int} {refused : List Path}
    (h : resume cfg s now refused = some s') :
    s'.store = s.store ∧ ∀ q c rest names, s'.pc ≠ .rechecked q c rest names := by
  unfold resume at h
  split at h
  · cases h
    exact ⟨rfl, start_not_rechecked cfg s.tree⟩
  · split at h
    · cases h
      exact ⟨rfl, loop_not_rechecked _ _⟩
    · cases h
      exact ⟨rfl, fun _ _ _ _ hpc => by cases hpc⟩
  · split at h
    · cases h
      exact ⟨rfl, loop_not_rechecked _ _⟩
    · split at h <;> cases h <;> exact ⟨rfl, loop_not_rechecked _ _⟩
  · cases h

theorem answerHolds_next {cfg : Setting} {s s' : State} {l : Label} (h : AnswerHolds s)
    (hcreate : CreatesBeforeQuery s l) (hnext : next cfg s l = some s') : AnswerHolds s' := by
  cases l with
  | accept r =>
    simp only [next] at hnext
    split at hnext <;> cases hnext
    exact h
  | create i id now =>
    simp only [next] at hnext
    split at hnext
    on_goal 2 => cases hnext
    rename_i r hr
    split at hnext <;> cases hnext
    · rename_i rows hrows
      refine answerHolds_of_not_rechecked (Store.keyed_createQueued h.1 hrows) ?_
      intro q c rest names heq
      have hpc : s.pc = .rechecked q c rest names := heq
      rw [CreatesBeforeQuery, hpc] at hcreate
      exact hcreate
    · exact h
  | write w now =>
    simp only [next] at hnext
    split at hnext <;> cases hnext
    · rename_i rows hrows
      obtain ⟨hkeyed, hanswer⟩ := h
      refine ⟨Write.keyed_apply hkeyed hrows, ?_⟩
      split
      · rename_i q c rest names heq
        simp only at heq
        rw [heq] at hanswer
        exact fun name hname => hanswer name (listed_of_apply hkeyed hrows hname)
      · trivial
    · exact h
  | touch name iso size =>
    cases hnext
    exact h
  | read =>
    obtain ⟨pc, hpc, rfl⟩ := Option.map_eq_some_iff.mp hnext
    exact answerHolds_readRows h.1 hpc
  | readFails message =>
    obtain ⟨pc, hpc, rfl⟩ := Option.map_eq_some_iff.mp hnext
    exact ⟨h.1, trivial⟩
  | resume now refused =>
    obtain ⟨hstore, hpc⟩ := resume_not_rechecked hnext
    exact answerHolds_of_not_rechecked (hstore ▸ h.1) hpc

/-- Only the unlinks after a recheck remove entries. -/
theorem removes_only_evicted {cfg : Setting} {s s' : State} {l : Label}
    (hnext : next cfg s l = some s') :
    Keeps s.tree s'.tree ∨ ∃ now refused p c rest names u, l = .resume now refused ∧
      s.pc = .rechecked p c rest names ∧ c.canonicalName ∉ names ∧
      evict s.tree refused c = some u ∧ s'.tree = u := by
  cases l with
  | accept r =>
    simp only [next] at hnext
    split at hnext <;> cases hnext
    exact .inl fun _ hp => hp
  | create i id now =>
    simp only [next] at hnext
    split at hnext
    on_goal 2 => cases hnext
    split at hnext <;> cases hnext <;> exact .inl fun _ hp => hp
  | write w now =>
    simp only [next] at hnext
    split at hnext <;> cases hnext <;> exact .inl fun _ hp => hp
  | touch name iso size =>
    cases hnext
    exact .inl (keeps_touchLastUsed _ _ _ _)
  | read =>
    obtain ⟨pc, -, rfl⟩ := Option.map_eq_some_iff.mp hnext
    exact .inl fun _ hp => hp
  | readFails message =>
    obtain ⟨pc, -, rfl⟩ := Option.map_eq_some_iff.mp hnext
    exact .inl fun _ hp => hp
  | resume now refused =>
    simp only [next, resume] at hnext
    split at hnext
    · cases hnext
      exact .inl fun _ hp => hp
    · split at hnext <;> cases hnext <;> exact .inl fun _ hp => hp
    · rename_i p c rest names hpc
      split at hnext
      · cases hnext
        exact .inl fun _ hp => hp
      · rename_i hname
        split at hnext
        · rename_i u hu
          cases hnext
          exact .inr ⟨now, refused, p, c, rest, names, u, rfl, hpc, hname, hu, rfl⟩
        · cases hnext
          exact .inl fun _ hp => hp
    · cases hnext

/-- The unlinks of a candidate remove its own entry and that of its sidecar. -/
theorem evict_removes {t u : LoraTree} {refused : List Path} {c : Candidate}
    (h : evict t refused c = some u) {file : Path} (hfile : t.node? file ≠ none)
    (hgone : u.node? file = none) :
    t.entry c.path = some file ∨
      ∃ v, t.unlink c.path = some v ∧ v.entry (sidecarPath c.path) = some file := by
  obtain ⟨v, hv, hu⟩ := Option.map_eq_some_iff.mp h
  have hunlink : t.unlink c.path = some v := by
    unfold unlink at hv
    split at hv
    · cases hv
    · exact hv
  obtain ⟨e, he, -, hnodes⟩ := FileTree.unlink_some hunlink
  by_cases heq : file = e
  · exact .inl (heq ▸ he)
  have hstill : v.node? file ≠ none := by simpa [hnodes, heq] using hfile
  rcases hside : unlink v refused (sidecarPath c.path) with _ | w
  · rw [hside] at hu
    exact absurd hgone (hu ▸ hstill)
  · rw [hside] at hu
    unfold unlink at hside
    split at hside
    · cases hside
    obtain ⟨e', he', -, hnodes'⟩ := FileTree.unlink_some hside
    rw [← hu, Option.getD_some, hnodes'] at hgone
    by_cases heq' : file = e'
    · exact .inr ⟨v, hunlink, heq' ▸ he'⟩
    · rw [if_neg heq'] at hgone
      exact absurd hgone hstill

theorem dropLast_sidecarPath (path : Path) : (sidecarPath path).dropLast = path.dropLast := by
  rcases List.eq_nil_or_concat' path with rfl | ⟨front, name, rfl⟩
  · rfl
  · rw [sidecarPath, pathWithSuffix_append, List.dropLast_concat, List.dropLast_concat]

/-- Behind no link the unlinks of a candidate take its file and its sidecar. -/
theorem evict_straight {t u : LoraTree} {refused : List Path} {c : Candidate}
    (h : evict t refused c = some u) (hstraight : t.Straight c.path.dropLast) {file : Path}
    (hfile : t.node? file ≠ none) (hgone : u.node? file = none) :
    file = c.path ∨ file = sidecarPath c.path := by
  rcases evict_removes h hfile hgone with hentry | ⟨v, hunlink, hentry⟩
  · exact .inl (t.entry_straight hstraight hentry)
  · obtain ⟨e, -, -, hnodes⟩ := FileTree.unlink_some hunlink
    refine .inr (v.entry_straight ?_ hentry)
    rw [dropLast_sidecarPath]
    refine hstraight.of_nodes fun q => ?_
    rw [hnodes q]
    split
    · exact .inl rfl
    · exact .inr rfl

/-- A file that is asked for plainly is protected: the recheck finds the name of
its candidate. -/
theorem spares_of_plainly {cfg : Setting} {s : State} {l : Label} (h : Sound cfg s)
    (hplain : NeededPlainly cfg s l) : Spares cfg s l := by
  intro s' hnext file hfile hgone hneeded
  rcases removes_only_evicted hnext with hkeeps |
    ⟨now, refused, p, c, rest, names, u, rfl, hpc, hname, hu, htree⟩
  · exact hkeeps file hfile hgone
  · obtain ⟨⟨-, hanswer⟩, hnamed⟩ := h
    simp only [NeededPlainly, hpc] at hplain
    rw [hpc] at hanswer hnamed
    rw [htree] at hgone
    obtain ⟨hstraight, hasked⟩ := hplain u hu file hfile hgone hneeded
    obtain ⟨name, hcanonical, hjoin, hlisted⟩ := hasked.listed
    rcases evict_straight hu hstraight hfile hgone with hpath | hsidecar
    · have hcandidate : c.canonicalName = name := by
        rw [hnamed c List.mem_cons_self, ← hpath, hjoin, canonicalName_file hcanonical]
      exact hname (hcandidate ▸ hanswer name hlisted)
    · exact hcanonical.ne_sidecar cfg.lorasRoot c.path (hjoin.symm.trans hsidecar)

theorem candidatesNamed_loop {cfg : Setting} {cs : List Candidate}
    (h : ∀ d ∈ cs, d.canonicalName = cfg.canonicalName d.path) (p : Progress) :
    CandidatesNamed cfg (loop p cs) := by
  unfold loop
  split
  · cases cs with
    | nil => trivial
    | cons c rest => exact h
  · trivial

theorem candidatesNamed_select {cfg : Setting} {t : LoraTree} {names : List String} {now : Int}
    {cs : List Candidate} (h : cfg.select t names now = .ok cs) :
    ∀ d ∈ cs, d.canonicalName = cfg.canonicalName d.path := by
  obtain ⟨⟨cutoff, hcutoff⟩, hdecodable⟩ := of_select_ok h
  have hline : cfg.select t names now = .ok _ := evict_for.select_ok hcutoff hdecodable
  rw [h] at hline
  cases hline
  intro d hd
  obtain ⟨path, -, rfl⟩ := List.mem_map.mp hd
  rfl

theorem candidatesNamed_next {cfg : Setting} {s s' : State} {l : Label}
    (h : CandidatesNamed cfg s.pc) (hnext : next cfg s l = some s') :
    CandidatesNamed cfg s'.pc := by
  cases l with
  | accept r =>
    simp only [next] at hnext
    split at hnext <;> cases hnext
    exact h
  | create i id now =>
    simp only [next] at hnext
    split at hnext
    on_goal 2 => cases hnext
    split at hnext <;> cases hnext <;> exact h
  | write w now =>
    simp only [next] at hnext
    split at hnext <;> cases hnext <;> exact h
  | touch name iso size =>
    cases hnext
    exact h
  | read =>
    obtain ⟨pc, hpc, rfl⟩ := Option.map_eq_some_iff.mp hnext
    unfold readRows at hpc
    dsimp only at hpc
    split at hpc
    · split at hpc <;> cases hpc <;> trivial
    · rename_i heq
      rw [heq] at h
      split at hpc
      · cases hpc
        exact h
      · cases hpc
        trivial
    · cases hpc
  | readFails message =>
    obtain ⟨pc, -, rfl⟩ := Option.map_eq_some_iff.mp hnext
    trivial
  | resume now refused =>
    simp only [next, resume] at hnext
    split at hnext
    · cases hnext
      unfold start
      dsimp only
      split
      · trivial
      · split <;> trivial
    · split at hnext
      · rename_i hselect
        cases hnext
        exact candidatesNamed_loop (candidatesNamed_select hselect) _
      · cases hnext
        trivial
    · rename_i p c rest names hpc
      rw [hpc] at h
      have hrest : ∀ d ∈ rest, d.canonicalName = cfg.canonicalName d.path :=
        fun d hd => h d (List.mem_cons_of_mem c hd)
      split at hnext
      · cases hnext
        exact candidatesNamed_loop hrest _
      · split at hnext <;> cases hnext <;> exact candidatesNamed_loop hrest _
    · cases hnext

/-! ## Runs -/

/-- A call of `evict_for`, with the service going on around it. -/
def called (t : LoraTree) (store : Store) (admitted : List Submission) : State :=
  ⟨t, store, admitted, .called⟩

/-- In a run where no file is unlinked that live jobs need without one of them
asking for it plainly, no file that a live job's reference resolves to is
unlinked at all. -/
theorem no_needed_lora_is_unlinked (cfg : Setting) {t : LoraTree} {store : Store}
    {admitted : List Submission} {labels : List Label} (hs : store.Keyed)
    (hcreate : AllSteps (next cfg) CreatesBeforeQuery (called t store admitted) labels)
    (hplain : AllSteps (next cfg) (NeededPlainly cfg) (called t store admitted) labels) :
    AllSteps (next cfg) (Spares cfg) (called t store admitted) labels := by
  have hstart : Sound cfg (called t store admitted) := ⟨⟨hs, trivial⟩, trivial⟩
  refine (hcreate.and hplain).of_invariant ?_ ?_ hstart
  · intro s l s' h hok hnext
    exact ⟨answerHolds_next h.answer hok.1 hnext, candidatesNamed_next h.candidates hnext⟩
  · intro s l h hok
    exact spares_of_plainly h hok.2

/-- One stale fetched LoRA. -/
def oneFetchedLora : LoraTree where
  entries := [
    (["loras"], .dir),
    (["loras", "civitai"], .dir),
    (["loras", "civitai", "x.safetensors"], .file ⟨500, .malformed ""⟩),
    (["loras", "civitai", "x.json"],
      .file ⟨30, .value (.obj [("source", .str "civitai")])⟩)]
  nodup := by decide
  components := by decide
  parents := by decide

def smallSetting : Setting where
  registry _ := some { name := "wan", workflowPath := "w.json", checkpoint := "c",
                       vramEstimateGb := 0 }
  lorasRoot := ["loras"]
  float
    | .float x => some x
    | _ => none
  incomingSize := 400
  dirMaxBytes := 600
  recentUseDays := 7
  fromisoformat _ := none

/-- A request with one LoRA. -/
def withLora (artifact : Artifact) (name : String) : Submission where
  artifact := artifact
  modelName := "wan"
  raw := .obj [("model", .str "wan"), ("prompt", .str "sea"), ("loras", .arr [
    .obj [("name", .str name), ("weight", .float (.finite 1))]])]
  mode := .async
  webhookUrl := none
  webhookHeaders := none

/-- The call up to its first unlink. The request that was admitted before is
inserted between the selection and the recheck. -/
def upToUnlink : List Label :=
  [.resume 0 [], .read, .resume (10 * dayMicros) [], .create 0 "a" 0, .read]

theorem upToUnlink_createsBeforeQuery (r : Submission) :
    AllSteps (next smallSetting) CreatesBeforeQuery (called oneFetchedLora [] [r])
      (upToUnlink ++ [.resume 0 []]) := by
  refine ⟨trivial, fun _ h => ?_⟩
  cases h
  refine ⟨trivial, fun _ h => ?_⟩
  cases h
  refine ⟨trivial, fun _ h => ?_⟩
  cases h
  exact ⟨trivial, fun _ _ => ⟨trivial, fun _ _ => ⟨trivial, fun _ _ => trivial⟩⟩⟩

theorem oneFetchedLora_straight {p : Path} (hup : ".." ∉ p) : oneFetchedLora.Straight p := by
  apply FileTree.straight_of_entries _ hup
  intro e he absolute target hlink
  simp only [oneFetchedLora, List.mem_cons, List.not_mem_nil, or_false] at he
  rcases he with rfl | rfl | rfl | rfl <;> cases hlink

/-- The recheck spares a LoRA that an image job lists by its canonical name. -/
theorem a_listed_lora_is_spared :
    AllSteps (next smallSetting) (Spares smallSetting)
      (called oneFetchedLora [] [withLora .image "civitai/x"]) (upToUnlink ++ [.resume 0 []]) := by
  apply no_needed_lora_is_unlinked
  · exact List.nodup_nil
  · exact upToUnlink_createsBeforeQuery _
  · refine ⟨trivial, fun _ h => ?_⟩
    cases h
    refine ⟨trivial, fun _ h => ?_⟩
    cases h
    refine ⟨trivial, fun _ h => ?_⟩
    cases h
    refine ⟨trivial, fun _ h => ?_⟩
    cases h
    refine ⟨trivial, fun _ h => ?_⟩
    cases h
    refine ⟨?_, fun _ _ => trivial⟩
    intro u hu file hfile hgone hneeded
    refine ⟨oneFetchedLora_straight (by decide), ?_⟩
    obtain ⟨j, hj, hlive, artifact, raw, hraw, r, hr, hresolved⟩ := hneeded
    have hrow : j = (withLora .image "civitai/x").row "a" 0 := List.mem_singleton.mp hj
    subst hrow
    cases hraw
    have hreferences : references smallSetting.toValidator .image
        (withLora .image "civitai/x").raw = [("lora", "civitai/x")] := by rfl
    refine ⟨_, hj, hlive, _, rfl, r, hr, hresolved, ?_⟩
    have hr' : r = ("lora", "civitai/x") := List.mem_singleton.mp (hreferences ▸ hr)
    subst hr'
    exact ⟨⟨["civitai", "x"], by decide, by decide, rfl⟩, oneFetchedLora_straight (by decide)⟩

/-- A queued video job does not protect its LoRA: the envelope has no top-level
`loras`. -/
theorem a_video_lora_is_unlinked :
    (validate smallSetting.toValidator oneFetchedLora (.video .t2v)
        (withLora (.video .t2v) "civitai/x").raw).isOk = true ∧
      AllSteps (next smallSetting) CreatesBeforeQuery
        (called oneFetchedLora [] [withLora (.video .t2v) "civitai/x"])
        (upToUnlink ++ [.resume 0 []]) ∧
      ¬ AllSteps (next smallSetting) (Spares smallSetting)
        (called oneFetchedLora [] [withLora (.video .t2v) "civitai/x"])
        (upToUnlink ++ [.resume 0 []]) := by
  refine ⟨by decide +kernel, upToUnlink_createsBeforeQuery _, fun h => ?_⟩
  have hrun : exec (next smallSetting)
      (called oneFetchedLora [] [withLora (.video .t2v) "civitai/x"]) upToUnlink =
      some ⟨oneFetchedLora, [(withLora (.video .t2v) "civitai/x").row "a" 0], [],
        .rechecked ⟨300, 0, 1⟩ ⟨0, ["loras", "civitai", "x.safetensors"], 500, "civitai/x"⟩ []
          []⟩ := by rfl
  have hspares := (h.right hrun).1
  refine hspares _ rfl ["loras", "civitai", "x.safetensors"] ?_ rfl ?_
  · exact fun hnone => by cases hnone
  · have hrefs : references smallSetting.toValidator (.video .t2v)
        (withLora (.video .t2v) "civitai/x").raw = [("lora", "civitai/x")] := by rfl
    have hfile : resolveName oneFetchedLora ["loras"] "lora" "civitai/x" =
        .ok ["loras", "civitai", "x.safetensors"] :=
      resolveName_real (by rfl) (by decide) (by rfl)
    refine ⟨_, List.mem_singleton.mpr rfl, by decide, .video .t2v,
      (withLora (.video .t2v) "civitai/x").raw, rfl, ("lora", "civitai/x"), ?_, hfile⟩
    rw [hrefs]
    exact List.mem_singleton.mpr rfl

end image_gen.lora_protection

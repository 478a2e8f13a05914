-- The URL of a fetch (`app/loras/civitai_url.py`): what the parser takes, and the
-- grammar that it is meant to take.
import ImageGen.Graph
import ImageGen.Results

namespace image_gen.civitai_url

open image_gen.py_str image_gen.results
open image_gen.graph (isSpace)
open image_gen.lora_files (pyRepr)

/-! ## `int` of a text -/

/-- What `int` drops at both ends: the spaces of C, and those of Unicode beyond
ASCII, so not U+001C to U+001F. -/
def intSpace (c : Char) : Bool :=
  (9 ≤ c.toNat && c.toNat ≤ 13) || c.toNat = 32 || (128 ≤ c.toNat && isSpace c)

def intStrip (text : List Char) : List Char :=
  ((text.dropWhile intSpace).reverse.dropWhile intSpace).reverse

/-- Digits, with single underscores between them. -/
def digitGroups (str : PyStr) (text : List Char) : Option Nat :=
  if ∀ group ∈ text.splitOn '_', group ≠ [] ∧ ∀ c ∈ group, (str.decimal c).isSome = true then
    some (str.int (text.splitOn '_').flatten)
  else none

/-- `int(text)`, for as many digits as `int` takes. -/
def intOf (str : PyStr) (text : List Char) : Option Int :=
  match intStrip text with
  | '+' :: rest => (digitGroups str rest).map Int.ofNat
  | '-' :: rest => (digitGroups str rest).map fun n => -Int.ofNat n
  | rest => (digitGroups str rest).map Int.ofNat

/-! ## The parts of a URL -/

structure SplitUrl where
  scheme : String
  username : Option String
  password : Option String
  /-- An error is the `ValueError` of the property. -/
  port : Except String (Option Nat)
  hostname : Option String
  path : String
  query : String

def allowedHosts : List String := ["civitai.com", "civitai.red"]

def downloadPrefix : List Char := "/api/download/models/".toList

def modelsPrefix : List Char := "/models/".toList

/-- Characters that no part of a URL escapes. -/
def Unreserved (c : Char) : Prop := c.isAlphanum = true ∨ c = '-'

instance : DecidablePred Unreserved := fun c => by
  unfold Unreserved
  infer_instance

/-- `urllib.parse`, with what its documentation says of it. -/
structure Lib where
  str : PyStr
  urlparse : String → Except String SplitUrl
  /-- With `keep_blank_values`. -/
  parseQsl : String → List (String × String)
  decimal_slash : str.decimal '/' = none
  urlparse_empty : ∀ parts, urlparse "" = .ok parts → parts.scheme = ""
  /-- Line feeds are removed, and the path ends where the query or the fragment begins. -/
  path_chars : ∀ url parts, urlparse url = .ok parts →
    ∀ c ∈ parts.path.toList, c ≠ '\n' ∧ c ≠ '?' ∧ c ≠ '#'
  split_path : ∀ host ∈ allowedHosts, ∀ path : List Char,
    (∀ c ∈ path, Unreserved c ∨ c = '/') →
      urlparse ("https://" ++ host ++ "/" ++ String.ofList path) =
        .ok ⟨"https", none, none, .ok none, some host, "/" ++ String.ofList path, ""⟩
  split_query : ∀ host ∈ allowedHosts, ∀ path query : List Char,
    (∀ c ∈ path, Unreserved c ∨ c = '/') → (∀ c ∈ query, Unreserved c ∨ c = '=') →
      urlparse ("https://" ++ host ++ "/" ++ String.ofList path ++ "?" ++ String.ofList query) =
        .ok ⟨"https", none, none, .ok none, some host, "/" ++ String.ofList path,
          String.ofList query⟩
  one_pair : ∀ name value : List Char, name ≠ [] → (∀ c ∈ name, Unreserved c) →
    (∀ c ∈ value, Unreserved c) →
      parseQsl (String.ofList (name ++ '=' :: value)) = [(String.ofList name, String.ofList value)]

/-! ## The parser -/

structure ParsedCivitaiUrl where
  host : String
  modelId : Option Nat
  versionId : Int
  deriving DecidableEq

section Parser

variable (lib : Lib)

/-- `\d+$`, where `$` also stands before a line feed at the end. -/
def finalDigits (text : List Char) : Option (List Char) :=
  let digits := if text.getLast? = some '\n' then text.dropLast else text
  if digits ≠ [] ∧ ∀ c ∈ digits, (lib.str.decimal c).isSome = true then some digits else none

/-- `_API_DOWNLOAD_PATH_RE`. -/
def downloadDigits (path : List Char) : Option (List Char) :=
  (path.dropPrefix? downloadPrefix).bind (finalDigits lib)

/-- `(?:/[^/?#]*)?$`. -/
def IsSlug (tail : List Char) : Prop :=
  tail = [] ∨ tail = ['\n'] ∨ tail.head? = some '/' ∧ ∀ c ∈ tail.tail, c ≠ '/' ∧ c ≠ '?' ∧ c ≠ '#'

instance : DecidablePred IsSlug := fun tail => by
  unfold IsSlug
  infer_instance

/-- `_MODELS_PATH_RE`. The digits are as many as there are. -/
def modelsDigits (path : List Char) : Option (List Char) :=
  (path.dropPrefix? modelsPrefix).bind fun rest =>
    let isDecimal := fun c => (lib.str.decimal c).isSome
    let digits := rest.takeWhile isDecimal
    if digits ≠ [] ∧ IsSlug (rest.dropWhile isDecimal) then some digits else none

def hostOf (parsed : SplitUrl) : String :=
  String.ofList (lib.str.lower (parsed.hostname.getD "").toList)

/-- Each value of `modelVersionId`. -/
def versions (query : String) : List String :=
  ((lib.parseQsl query).filter fun pair => pair.1 = "modelVersionId").map (·.2)

/-- `parse_qs(query, keep_blank_values=False).get("modelVersionId")`. -/
def versionValues (query : String) : List String := (versions lib query).filter (· ≠ "")

/-- The part after the host. -/
def parsePath (host path query : String) : Except String ParsedCivitaiUrl :=
  match downloadDigits lib path.toList with
  | some digits => .ok ⟨host, none, lib.str.int digits⟩
  | none =>
    match modelsDigits lib path.toList with
    | none => .error ("unsupported civitai path: " ++ pyRepr path)
    | some digits =>
      match versionValues lib query with
      | [] => .error "version_id required; append ?modelVersionId=<id> to the URL"
      | [value] =>
        match intOf lib.str value.toList with
        | none => .error ("modelVersionId must be an integer, got " ++ pyRepr value)
        | some version => .ok ⟨host, some (lib.str.int digits), version⟩
      | _ => .error "modelVersionId must appear exactly once"

def parseCivitaiUrl (url : String) : Except String ParsedCivitaiUrl := do
  refuseIf (url = "") "url must be a non-empty string"
  let parsed ← lib.urlparse url
  refuseIf (parsed.scheme ≠ "https") ("scheme must be https, got " ++ pyRepr parsed.scheme)
  refuseIf (parsed.username ≠ none ∨ parsed.password ≠ none) "url must not contain userinfo"
  let port ← parsed.port.mapError fun message => "invalid port in url: " ++ message
  refuseIf (port ≠ none) "url must not specify a port"
  let host := hostOf lib parsed
  refuseIf (host ∉ allowedHosts) ("host not in allowlist: " ++ pyRepr host)
  parsePath lib host parsed.path parsed.query

end Parser

/-! ## The grammar -/

section Grammar

variable (lib : Lib)

/-- A number in ASCII digits. -/
def Numeral (text : List Char) : Prop := text ≠ [] ∧ ∀ c ∈ text, c.isDigit = true

def valueOf (text : List Char) : Nat := Nat.ofDigitChars 10 text 0

def OneSegment (slug : List Char) : Prop :=
  slug = [] ∨ ∃ segment, slug = '/' :: segment ∧ '/' ∉ segment

/-- Https, without userinfo or port, on one of the hosts. -/
structure OnHost (parts : SplitUrl) : Prop where
  scheme : parts.scheme = "https"
  username : parts.username = none
  password : parts.password = none
  port : parts.port = .ok none
  host : hostOf lib parts ∈ allowedHosts

/-- The ids that the path and the query write. -/
inductive Writes (path query : String) : Option Nat → Int → Prop
  | download {v : List Char} (hv : Numeral v) (hpath : path.toList = downloadPrefix ++ v) :
      Writes path query none (valueOf v)
  | page {m v slug : List Char} (hm : Numeral m) (hv : Numeral v)
      (hslug : OneSegment slug)
      (hpath : path.toList = modelsPrefix ++ m ++ slug)
      (hquery : versions lib query = [String.ofList v]) :
      Writes path query (some (valueOf m)) (valueOf v)

/-- What a URL of the grammar stands for. -/
def Denotes (url : String) (r : ParsedCivitaiUrl) : Prop :=
  ∃ parts, lib.urlparse url = .ok parts ∧ OnHost lib parts ∧ r.host = hostOf lib parts ∧
    Writes lib parts.path parts.query r.modelId r.versionId

def canonical (r : ParsedCivitaiUrl) : String :=
  match r.modelId with
  | none => "https://" ++ r.host ++ "/api/download/models/" ++ toString r.versionId
  | some m =>
    "https://" ++ r.host ++ "/models/" ++ toString m ++ "?modelVersionId=" ++ toString r.versionId

/-- The promise about a URL. -/
structure GrammarHolds (url : String) : Prop where
  accepted : (∃ r, parseCivitaiUrl lib url = .ok r) ↔ ∃ r, Denotes lib url r
  denotes : ∀ r, parseCivitaiUrl lib url = .ok r → Denotes lib url r
  canonical : ∀ r, parseCivitaiUrl lib url = .ok r → parseCivitaiUrl lib (canonical r) = .ok r

/-- The ids of an accepted URL are written in ASCII digits, and no blank
`modelVersionId` stands beside the one that is read. -/
def WrittenInDigits (url : String) : Prop :=
  ∀ parts, lib.urlparse url = .ok parts → OnHost lib parts →
    (∀ digits, downloadDigits lib parts.path.toList = some digits → Numeral digits) ∧
    ∀ digits value, modelsDigits lib parts.path.toList = some digits →
      versionValues lib parts.query = [value] → intOf lib.str value.toList ≠ none →
        Numeral digits ∧ Numeral value.toList ∧ versions lib parts.query = [value]

end Grammar

/-! ## Numbers -/

section Numbers

variable {str : PyStr}

theorem toNat_of_isDigit {c : Char} (h : c.isDigit = true) : 48 ≤ c.toNat ∧ c.toNat ≤ 57 := by
  simp only [Char.isDigit, Bool.and_eq_true, decide_eq_true_eq] at h
  exact ⟨UInt32.le_iff_toNat_le.mp h.1, UInt32.le_iff_toNat_le.mp h.2⟩

theorem not_space {c : Char} (hlo : 45 ≤ c.toNat) (hhi : c.toNat ≤ 57) :
    intSpace c = false := by
  simp only [intSpace, Bool.or_eq_false_iff, Bool.and_eq_false_iff, decide_eq_false_iff_not]
  omega

theorem intStrip_eq {text : List Char} (h : ∀ c ∈ text, 45 ≤ c.toNat ∧ c.toNat ≤ 57) :
    intStrip text = text := by
  have hdrop : ∀ l : List Char, (∀ c ∈ l, 45 ≤ c.toNat ∧ c.toNat ≤ 57) →
      l.dropWhile intSpace = l := by
    intro l hl
    cases l with
    | nil => rfl
    | cons c rest =>
      have hc := hl c List.mem_cons_self
      rw [List.dropWhile_cons_of_neg]
      rw [not_space hc.1 hc.2]
      exact Bool.false_ne_true
  unfold intStrip
  rw [hdrop text h, hdrop text.reverse fun c hc => h c (List.mem_reverse.mp hc),
    List.reverse_reverse]

theorem isSome_decimal {text : List Char} (h : Numeral text) :
    ∀ c ∈ text, (str.decimal c).isSome = true := by
  intro c hc
  rw [str.decimal_digit c (h.2 c hc)]
  rfl

theorem int_numeral {text : List Char} (h : Numeral text) : str.int text = valueOf text :=
  int_eq_ofDigitChars str h.2

theorem digitGroups_numeral {text : List Char} (h : Numeral text) :
    digitGroups str text = some (valueOf text) := by
  have hsplit : text.splitOn '_' = [text] := by
    apply List.splitOn_eq_singleton
    intro hmem
    exact absurd (h.2 '_' hmem) (by decide)
  have hgroups : ∀ group ∈ text.splitOn '_',
      group ≠ [] ∧ ∀ c ∈ group, (str.decimal c).isSome = true := by
    rw [hsplit]
    intro group hgroup
    rw [List.mem_singleton.mp hgroup]
    exact ⟨h.1, isSome_decimal h⟩
  unfold digitGroups
  rw [if_pos hgroups, hsplit, List.flatten_singleton, int_numeral h]

theorem intOf_numeral {text : List Char} (h : Numeral text) :
    intOf str text = some (valueOf text : Int) := by
  have hrange : ∀ c ∈ text, 45 ≤ c.toNat ∧ c.toNat ≤ 57 := by
    intro c hc
    have := toNat_of_isDigit (h.2 c hc)
    omega
  obtain ⟨c, rest, rfl⟩ := List.exists_cons_of_ne_nil h.1
  have hc := h.2 c List.mem_cons_self
  unfold intOf
  rw [intStrip_eq hrange]
  split
  · next heq =>
    cases heq
    exact absurd hc (by decide)
  · next heq =>
    cases heq
    exact absurd hc (by decide)
  · rw [digitGroups_numeral h]
    rfl

theorem intOf_neg {text : List Char} (h : Numeral text) :
    intOf str ('-' :: text) = some (-(valueOf text : Int)) := by
  have hrange : ∀ c ∈ '-' :: text, 45 ≤ c.toNat ∧ c.toNat ≤ 57 := by
    intro c hc
    rcases List.mem_cons.mp hc with rfl | hc
    · decide
    · have := toNat_of_isDigit (h.2 c hc)
      omega
  unfold intOf
  rw [intStrip_eq hrange]
  change (digitGroups str text).map (fun n => -Int.ofNat n) = _
  rw [digitGroups_numeral h]
  rfl

theorem numeral_toString (n : Nat) : Numeral (toString n).toList := toString_digits n

theorem valueOf_toString (n : Nat) : valueOf (toString n).toList = n := by
  rw [← int_numeral (numeral_toString n)]
  exact int_toString ascii n

theorem intOf_toString (i : Int) : intOf str (toString i).toList = some i := by
  cases i with
  | ofNat n =>
    have htext : toString (Int.ofNat n) = toString n := rfl
    rw [htext, intOf_numeral (numeral_toString n), valueOf_toString]
    rfl
  | negSucc n =>
    have htext : (toString (Int.negSucc n)).toList = '-' :: (toString (n + 1)).toList := by
      change ("-" ++ toString (n + 1)).toList = _
      rw [String.toList_append]
      rfl
    rw [htext, intOf_neg (numeral_toString (n + 1)), valueOf_toString]
    rfl

end Numbers

/-! ## The two paths -/

section Paths

variable {lib : Lib} {path digits : List Char}

theorem dropPrefix_iff {first rest : List Char} :
    path.dropPrefix? first = some rest ↔ path = first ++ rest := by
  rw [List.dropPrefix?_eq_some_iff]
  constructor
  · rintro ⟨first', heq, hbeq⟩
    rw [heq, beq_iff_eq.mp hbeq]
  · intro heq
    exact ⟨first, heq, beq_self_eq_true first⟩

/-- A run of the digits of any script. -/
def Decimals (lib : Lib) (text : List Char) : Prop :=
  text ≠ [] ∧ ∀ c ∈ text, (lib.str.decimal c).isSome = true

theorem decimals_of_numeral (h : Numeral digits) : Decimals lib digits := ⟨h.1, isSome_decimal h⟩

theorem downloadDigits_iff (hfeed : ∀ c ∈ path, c ≠ '\n') :
    downloadDigits lib path = some digits ↔
      path = downloadPrefix ++ digits ∧ Decimals lib digits := by
  have hrest : ∀ rest, path = downloadPrefix ++ rest →
      (finalDigits lib rest = some digits ↔ rest = digits ∧ Decimals lib digits) := by
    intro rest hpath
    have hlast : ¬ rest.getLast? = some '\n' := by
      intro hlast
      apply hfeed '\n' _ rfl
      rw [hpath]
      exact List.mem_append_right _ (List.mem_of_getLast? hlast)
    unfold finalDigits Decimals
    rw [if_neg hlast]
    dsimp only
    by_cases hdigits : rest ≠ [] ∧ ∀ c ∈ rest, (lib.str.decimal c).isSome = true
    · rw [if_pos hdigits, Option.some.injEq]
      constructor
      · rintro rfl
        exact ⟨rfl, hdigits⟩
      · exact fun h => h.1
    · rw [if_neg hdigits]
      constructor
      · nofun
      · rintro ⟨rfl, h⟩
        exact absurd h hdigits
  unfold downloadDigits
  rw [Option.bind_eq_some_iff]
  constructor
  · rintro ⟨rest, hdrop, hfinal⟩
    rw [dropPrefix_iff] at hdrop
    obtain ⟨rfl, hdecimals⟩ := (hrest rest hdrop).mp hfinal
    exact ⟨hdrop, hdecimals⟩
  · rintro ⟨hpath, hdecimals⟩
    exact ⟨digits, dropPrefix_iff.mpr hpath, (hrest digits hpath).mpr ⟨rfl, hdecimals⟩⟩

theorem isSlug_iff {tail : List Char} (hchars : ∀ c ∈ tail, c ≠ '\n' ∧ c ≠ '?' ∧ c ≠ '#') :
    IsSlug tail ↔ OneSegment tail := by
  unfold IsSlug OneSegment
  constructor
  · rintro (rfl | rfl | ⟨hhead, hrest⟩)
    · exact Or.inl rfl
    · exact absurd rfl (hchars '\n' List.mem_cons_self).1
    · obtain ⟨segment, rfl⟩ := List.head?_eq_some_iff.mp hhead
      exact Or.inr ⟨segment, rfl, fun hslash => (hrest '/' hslash).1 rfl⟩
  · rintro (rfl | ⟨segment, rfl, hslash⟩)
    · exact Or.inl rfl
    · refine Or.inr (Or.inr ⟨rfl, fun c hc => ?_⟩)
      have hother := (hchars c (List.mem_cons_of_mem _ hc)).2
      exact ⟨fun heq => hslash (heq ▸ hc), hother⟩

/-- What satisfies the test ends where the rest begins. -/
theorem span_append {p : Char → Bool} {first rest : List Char} (hfirst : ∀ c ∈ first, p c = true)
    (hrest : ∀ c ∈ rest.head?, p c = false) :
    (first ++ rest).takeWhile p = first ∧ (first ++ rest).dropWhile p = rest := by
  rw [List.takeWhile_append_of_pos hfirst, List.dropWhile_append_of_pos hfirst]
  cases rest with
  | nil => simp
  | cons c rest =>
    have hc : ¬ p c = true := by
      rw [hrest c rfl]
      exact Bool.false_ne_true
    rw [List.takeWhile_cons_of_neg hc, List.dropWhile_cons_of_neg hc, List.append_nil]
    exact ⟨rfl, rfl⟩

/-- The digits end where the slug begins. -/
theorem takeWhile_digits {slug : List Char} (hdigits : Decimals lib digits)
    (hslug : OneSegment slug) :
    (digits ++ slug).takeWhile (fun c => (lib.str.decimal c).isSome) = digits ∧
      (digits ++ slug).dropWhile (fun c => (lib.str.decimal c).isSome) = slug := by
  refine span_append hdigits.2 fun c hc => ?_
  rcases hslug with rfl | ⟨segment, rfl, -⟩
  · cases hc
  · cases hc
    rw [lib.decimal_slash]
    rfl

theorem modelsDigits_iff (hchars : ∀ c ∈ path, c ≠ '\n' ∧ c ≠ '?' ∧ c ≠ '#') :
    modelsDigits lib path = some digits ↔
      ∃ slug, path = modelsPrefix ++ digits ++ slug ∧ Decimals lib digits ∧ OneSegment slug := by
  unfold modelsDigits
  rw [Option.bind_eq_some_iff]
  constructor
  · rintro ⟨rest, hdrop, hmatch⟩
    rw [dropPrefix_iff] at hdrop
    dsimp only at hmatch
    split_ifs at hmatch with hcond
    cases hmatch
    have hsplit := List.takeWhile_append_dropWhile (p := fun c => (lib.str.decimal c).isSome)
      (l := rest)
    refine ⟨_, ?_, ⟨hcond.1, fun c hc => ?_⟩, (isSlug_iff ?_).mp hcond.2⟩
    · rw [List.append_assoc, hsplit, hdrop]
    · exact List.mem_takeWhile_imp (p := fun c => (lib.str.decimal c).isSome) hc
    · intro c hc
      apply hchars
      rw [hdrop]
      exact List.mem_append_right _ ((List.dropWhile_suffix _).subset hc)
  · rintro ⟨slug, hpath, hdigits, hslug⟩
    rw [List.append_assoc] at hpath
    obtain ⟨htake, hdrop⟩ := takeWhile_digits hdigits hslug
    refine ⟨digits ++ slug, dropPrefix_iff.mpr hpath, ?_⟩
    have hslug' : IsSlug slug := by
      refine (isSlug_iff fun c hc => ?_).mpr hslug
      apply hchars
      rw [hpath]
      exact List.mem_append_right _ (List.mem_append_right _ hc)
    dsimp only
    rw [htake, hdrop, if_pos ⟨hdigits.1, hslug'⟩]

/-- No path has both forms. -/
theorem downloadDigits_eq_none {rest : List Char} (h : path = modelsPrefix ++ rest) :
    downloadDigits lib path = none := by
  unfold downloadDigits
  have hnone : path.dropPrefix? downloadPrefix = none := by
    rcases hdrop : path.dropPrefix? downloadPrefix with _ | rest'
    · rfl
    · have hmodels : modelsPrefix = '/' :: 'm' :: "odels/".toList := by decide +kernel
      have hdownload : downloadPrefix = '/' :: 'a' :: "pi/download/models/".toList := by
        decide +kernel
      rw [dropPrefix_iff, h, hmodels, hdownload] at hdrop
      have hsecond := (List.cons.inj (List.cons.inj hdrop).2).1
      exact absurd hsecond (by decide)
  rw [hnone]
  rfl

end Paths

/-! ## What is accepted -/

section Accepted

variable {lib : Lib} {url : String} {r : ParsedCivitaiUrl}

theorem parse_ok_iff : parseCivitaiUrl lib url = .ok r ↔
    ∃ parts, lib.urlparse url = .ok parts ∧ OnHost lib parts ∧
      parsePath lib (hostOf lib parts) parts.path parts.query = .ok r := by
  constructor
  · intro h
    obtain ⟨-, -, h⟩ := bind_ok h
    obtain ⟨parts, hparts, h⟩ := bind_ok h
    obtain ⟨u, hscheme, h⟩ := bind_ok h
    obtain ⟨u', huser, h⟩ := bind_ok h
    obtain ⟨port, hport, h⟩ := bind_ok h
    obtain ⟨u'', hnoport, h⟩ := bind_ok h
    obtain ⟨w, hhost, h⟩ := bind_ok h
    have huser' := refuseIf_ok huser
    rw [not_or, not_not, not_not] at huser'
    have hport' := mapError_ok hport
    rw [not_not.mp (refuseIf_ok hnoport)] at hport'
    refine ⟨parts, hparts, ⟨?_, huser'.1, huser'.2, hport', ?_⟩, h⟩
    · exact not_not.mp (refuseIf_ok hscheme)
    · exact not_not.mp (refuseIf_ok hhost)
  · rintro ⟨parts, hparts, hon, hpath⟩
    have hurl : ¬ url = "" := by
      rintro rfl
      have hempty := lib.urlparse_empty parts hparts
      rw [hon.scheme] at hempty
      exact absurd hempty (by decide)
    have huser : ¬ (parts.username ≠ none ∨ parts.password ≠ none) := by
      rw [hon.username, hon.password]
      simp
    have hport : parts.port.mapError (fun message => "invalid port in url: " ++ message) =
        .ok none := by
      rw [hon.port]
      rfl
    have hnone : ¬ (none : Option Nat) ≠ none := fun h => h rfl
    unfold parseCivitaiUrl
    rw [refuseIf_pass hurl, ok_bind, hparts, ok_bind, refuseIf_pass (not_not.mpr hon.scheme),
      ok_bind, refuseIf_pass huser, ok_bind, hport, ok_bind, refuseIf_pass hnone, ok_bind]
    dsimp only
    rw [refuseIf_pass (not_not.mpr hon.host), ok_bind]
    exact hpath

/-- What the code reads in the path and the query. -/
inductive Reads (lib : Lib) (path query : String) : Option Nat → Int → Prop
  | download {digits : List Char} (hdigits : downloadDigits lib path.toList = some digits) :
      Reads lib path query none (lib.str.int digits)
  | page {digits : List Char} {value : String} {version : Int}
      (hdigits : modelsDigits lib path.toList = some digits)
      (hvalues : versionValues lib query = [value])
      (hvalue : intOf lib.str value.toList = some version) :
      Reads lib path query (some (lib.str.int digits)) version

theorem parsePath_ok_iff {host path query : String}
    (hchars : ∀ c ∈ path.toList, c ≠ '\n' ∧ c ≠ '?' ∧ c ≠ '#') :
    parsePath lib host path query = .ok r ↔
      r.host = host ∧ Reads lib path query r.modelId r.versionId := by
  constructor
  · intro h
    unfold parsePath at h
    split at h
    · next digits hdigits =>
      cases h
      exact ⟨rfl, .download hdigits⟩
    · split at h
      · cases h
      · next digits hdigits =>
        split at h
        · cases h
        · next value hvalues =>
          split at h
          · cases h
          · next version hvalue =>
            cases h
            exact ⟨rfl, .page hdigits hvalues hvalue⟩
        · cases h
  · obtain ⟨rhost, modelId, versionId⟩ := r
    rintro ⟨hhost, hreads⟩
    dsimp only at hhost hreads
    subst hhost
    unfold parsePath
    cases hreads with
    | download hdigits => rw [hdigits]
    | page hdigits hvalues hvalue =>
      obtain ⟨slug, hpath, -⟩ := (modelsDigits_iff hchars).mp hdigits
      rw [List.append_assoc] at hpath
      rw [downloadDigits_eq_none hpath, hdigits]
      dsimp only
      rw [hvalues]
      dsimp only
      rw [hvalue]

theorem versionValues_numeral {query : String} {v : List Char} (hv : Numeral v)
    (h : versions lib query = [String.ofList v]) :
    versionValues lib query = [String.ofList v] := by
  have hne : String.ofList v ≠ "" := by
    intro heq
    apply hv.1
    rw [← String.toList_ofList (l := v), heq]
    rfl
  unfold versionValues
  rw [h]
  simp [hne]

/-- A text of the grammar is read for what it writes. -/
theorem reads_of_writes {path query : String} {modelId : Option Nat} {versionId : Int}
    (hchars : ∀ c ∈ path.toList, c ≠ '\n' ∧ c ≠ '?' ∧ c ≠ '#')
    (h : Writes lib path query modelId versionId) : Reads lib path query modelId versionId := by
  cases h with
  | @download v hv hpath =>
    have hint : lib.str.int v = valueOf v := int_numeral hv
    rw [← hint]
    exact .download ((downloadDigits_iff fun c hc => (hchars c hc).1).mpr
      ⟨hpath, decimals_of_numeral hv⟩)
  | @page m v slug hm hv hslug hpath hquery =>
    have hint : lib.str.int m = valueOf m := int_numeral hm
    rw [← hint]
    refine .page ((modelsDigits_iff hchars).mpr ⟨slug, hpath, decimals_of_numeral hm, hslug⟩)
      (versionValues_numeral hv hquery) ?_
    rw [String.toList_ofList]
    exact intOf_numeral hv

theorem parse_of_denotes (h : Denotes lib url r) : parseCivitaiUrl lib url = .ok r := by
  obtain ⟨parts, hparts, hon, hhost, hwrites⟩ := h
  have hchars := lib.path_chars url parts hparts
  exact parse_ok_iff.mpr ⟨parts, hparts, hon,
    (parsePath_ok_iff hchars).mpr ⟨hhost, reads_of_writes hchars hwrites⟩⟩

/-- Where the ids are written in digits, what is read is written. -/
theorem denotes_of_parse (hdigits : WrittenInDigits lib url)
    (h : parseCivitaiUrl lib url = .ok r) : Denotes lib url r := by
  obtain ⟨parts, hparts, hon, hpath⟩ := parse_ok_iff.mp h
  have hchars := lib.path_chars url parts hparts
  obtain ⟨hhost, hreads⟩ := (parsePath_ok_iff hchars).mp hpath
  obtain ⟨hdownload, hpage⟩ := hdigits parts hparts hon
  refine ⟨parts, hparts, hon, hhost, ?_⟩
  obtain ⟨rhost, modelId, versionId⟩ := r
  dsimp only at hreads ⊢
  cases hreads with
  | @download digits hd =>
    have hnumeral := hdownload digits hd
    rw [int_numeral hnumeral]
    exact .download hnumeral ((downloadDigits_iff fun c hc => (hchars c hc).1).mp hd).1
  | @page digits value version hd hvalues hvalue =>
    obtain ⟨hm, hv, hversions⟩ := hpage digits value hd hvalues (by rw [hvalue]; nofun)
    obtain ⟨slug, hpath, -, hslug⟩ := (modelsDigits_iff hchars).mp hd
    have hversion : versionId = valueOf value.toList :=
      Option.some.inj (hvalue.symm.trans (intOf_numeral hv))
    rw [int_numeral hm, hversion]
    exact .page hm hv hslug hpath (by rw [hversions, String.ofList_toList])

/-- What is both read and written is written in digits. -/
theorem writtenInDigits_of_denotes
    (h : ∀ r, parseCivitaiUrl lib url = .ok r → Denotes lib url r) : WrittenInDigits lib url := by
  intro parts hparts hon
  have hchars := lib.path_chars url parts hparts
  have hwrites : ∀ modelId versionId, Reads lib parts.path parts.query modelId versionId →
      Writes lib parts.path parts.query modelId versionId := by
    intro modelId versionId hreads
    obtain ⟨parts', hparts', -, -, hw⟩ := h ⟨hostOf lib parts, modelId, versionId⟩
      (parse_ok_iff.mpr ⟨parts, hparts, hon, (parsePath_ok_iff hchars).mpr ⟨rfl, hreads⟩⟩)
    cases hparts.symm.trans hparts'
    exact hw
  constructor
  · intro digits hd
    have hw := hwrites _ _ (.download hd)
    generalize hversion : ((lib.str.int digits : Nat) : Int) = version at hw
    cases hw with
    | download hv hpath =>
      have heq := ((downloadDigits_iff fun c hc => (hchars c hc).1).mp hd).1
      rw [hpath] at heq
      exact List.append_cancel_left heq ▸ hv
  · intro digits value hd hvalues hsome
    obtain ⟨version, hvalue⟩ := Option.ne_none_iff_exists'.mp hsome
    have hw := hwrites _ _ (.page hd hvalues hvalue)
    generalize hmodel : some (lib.str.int digits) = modelId at hw
    cases hw with
    | download hv hpath => cases hmodel
    | @page m v slug hm hv hslug hpath hquery =>
      have hread : modelsDigits lib parts.path.toList = some m :=
        (modelsDigits_iff hchars).mpr ⟨slug, hpath, decimals_of_numeral hm, hslug⟩
      rw [hd, Option.some.injEq] at hread
      have hsame := versionValues_numeral hv hquery
      rw [hvalues, List.singleton_inj] at hsame
      subst hread hsame
      exact ⟨hm, by rwa [String.toList_ofList], hquery⟩

end Accepted

/-! ## The canonical URL -/

section Canonical

variable {lib : Lib} {host : String}

theorem unreserved_of_isDigit {c : Char} (h : c.isDigit = true) : Unreserved c := by
  refine Or.inl ?_
  simp [Char.isAlphanum, h]

theorem unreserved_toString (n : Nat) : ∀ c ∈ (toString n).toList, Unreserved c :=
  fun c hc => unreserved_of_isDigit ((toString_digits n).2 c hc)

theorem unreserved_toString_int (i : Int) : ∀ c ∈ (toString i).toList, Unreserved c := by
  cases i with
  | ofNat n => exact unreserved_toString n
  | negSucc n =>
    have htext : (toString (Int.negSucc n)).toList = '-' :: (toString (n + 1)).toList := by
      change ("-" ++ toString (n + 1)).toList = _
      rw [String.toList_append]
      rfl
    rw [htext]
    exact List.forall_mem_cons.mpr ⟨Or.inr rfl, unreserved_toString (n + 1)⟩

theorem toString_ne_empty (i : Int) : toString i ≠ "" := by
  intro hempty
  have hread : intOf ascii (toString i).toList = some i := intOf_toString i
  have hnone : intOf ascii "".toList = none := by decide +kernel
  rw [hempty, hnone] at hread
  cases hread

/-- The hosts are in lower case. -/
theorem lower_host (h : host ∈ allowedHosts) :
    String.ofList (lib.str.lower host.toList) = host := by
  have hascii : ∀ host ∈ allowedHosts, ∀ c ∈ host.toList,
      c.toNat < 128 ∧ c.isUpper = false := by
    decide +kernel
  have hlower : lib.str.lower host.toList = host.toList := by
    apply lower_eq
    intro c hc
    obtain ⟨hlt, hupper⟩ := hascii host h c hc
    exact lib.str.lower_ascii c hlt hupper
  rw [hlower, String.ofList_toList]

theorem onHost_plain (h : host ∈ allowedHosts) (path query : String) :
    OnHost lib ⟨"https", none, none, .ok none, some host, path, query⟩ := by
  refine ⟨rfl, rfl, rfl, rfl, ?_⟩
  change String.ofList (lib.str.lower host.toList) ∈ allowedHosts
  rw [lower_host h]
  exact h

theorem parse_canonical_download (h : host ∈ allowedHosts) (n : Nat) :
    parseCivitaiUrl lib (canonical ⟨host, none, (n : Int)⟩) = .ok ⟨host, none, (n : Int)⟩ := by
  have hurl : canonical ⟨host, none, (n : Int)⟩ = "https://" ++ host ++ "/" ++
      String.ofList ("api/download/models/".toList ++ (toString n).toList) := by
    apply String.toList_injective
    simp only [canonical, String.toList_append, String.toList_ofList, List.append_assoc]
    rfl
  have hpath : ("/" ++ String.ofList ("api/download/models/".toList ++
      (toString n).toList)).toList = downloadPrefix ++ (toString n).toList := by
    simp only [String.toList_append, String.toList_ofList]
    rfl
  have hparts := lib.split_path host h ("api/download/models/".toList ++ (toString n).toList)
    (List.forall_mem_append.mpr
      ⟨by decide +kernel, fun c hc => Or.inl (unreserved_toString n c hc)⟩)
  rw [← hurl] at hparts
  have hchars := lib.path_chars _ _ hparts
  refine parse_ok_iff.mpr ⟨_, hparts, onHost_plain h _ _, (parsePath_ok_iff hchars).mpr ⟨?_, ?_⟩⟩
  · exact (lower_host h).symm
  · have hdigits : downloadDigits lib _ = some (toString n).toList :=
      (downloadDigits_iff fun c hc => (hchars c hc).1).mpr
        ⟨hpath, decimals_of_numeral (numeral_toString n)⟩
    have hreads : Reads lib _ "" none (lib.str.int (toString n).toList) := .download hdigits
    rwa [int_toString] at hreads

theorem parse_canonical_page (h : host ∈ allowedHosts) (n : Nat) (version : Int) :
    parseCivitaiUrl lib (canonical ⟨host, some n, version⟩) = .ok ⟨host, some n, version⟩ := by
  have hurl : canonical ⟨host, some n, version⟩ = "https://" ++ host ++ "/" ++
      String.ofList ("models/".toList ++ (toString n).toList) ++ "?" ++
        String.ofList ("modelVersionId".toList ++ '=' :: (toString version).toList) := by
    apply String.toList_injective
    simp only [canonical, String.toList_append, String.toList_ofList, List.append_assoc]
    rfl
  have hpath : ("/" ++ String.ofList ("models/".toList ++ (toString n).toList)).toList =
      modelsPrefix ++ (toString n).toList ++ [] := by
    simp only [String.toList_append, String.toList_ofList, List.append_nil]
    rfl
  have hquery := lib.one_pair "modelVersionId".toList (toString version).toList (by decide +kernel)
    (by decide +kernel) (unreserved_toString_int version)
  have hparts := lib.split_query host h ("models/".toList ++ (toString n).toList)
    ("modelVersionId".toList ++ '=' :: (toString version).toList)
    (List.forall_mem_append.mpr
      ⟨by decide +kernel, fun c hc => Or.inl (unreserved_toString n c hc)⟩)
    (List.forall_mem_append.mpr ⟨by decide +kernel, List.forall_mem_cons.mpr
      ⟨Or.inr rfl, fun c hc => Or.inl (unreserved_toString_int version c hc)⟩⟩)
  rw [← hurl] at hparts
  have hchars := lib.path_chars _ _ hparts
  refine parse_ok_iff.mpr ⟨_, hparts, onHost_plain h _ _, (parsePath_ok_iff hchars).mpr ⟨?_, ?_⟩⟩
  · exact (lower_host h).symm
  · have hdigits : modelsDigits lib _ = some (toString n).toList := (modelsDigits_iff hchars).mpr
      ⟨[], hpath, decimals_of_numeral (numeral_toString n), Or.inl rfl⟩
    have hversions : versionValues lib (String.ofList ("modelVersionId".toList ++
        '=' :: (toString version).toList)) = [toString version] := by
      have hne := toString_ne_empty version
      unfold versionValues versions
      rw [hquery]
      simpa using hne
    have hreads := Reads.page hdigits hversions (intOf_toString version)
    rwa [int_toString] at hreads

/-- Every result is read again from its canonical URL. -/
theorem parse_canonical {url : String} {r : ParsedCivitaiUrl}
    (h : parseCivitaiUrl lib url = .ok r) :
    parseCivitaiUrl lib (canonical r) = .ok r := by
  obtain ⟨parts, hparts, hon, hpath⟩ := parse_ok_iff.mp h
  obtain ⟨hhost, hreads⟩ := (parsePath_ok_iff (lib.path_chars url parts hparts)).mp hpath
  obtain ⟨host, modelId, versionId⟩ := r
  dsimp only at hhost hreads ⊢
  subst hhost
  cases hreads with
  | download hdigits => exact parse_canonical_download hon.host _
  | page hdigits hvalues hvalue => exact parse_canonical_page hon.host _ _

end Canonical

/-! ## Every URL -/

/-- The parser takes the grammar exactly where the ids that it reads are written in
digits. A canonical URL is always read back. -/
theorem grammar_holds_iff (lib : Lib) (url : String) :
    GrammarHolds lib url ↔ WrittenInDigits lib url := by
  constructor
  · exact fun h => writtenInDigits_of_denotes h.denotes
  · intro h
    refine ⟨⟨?_, ?_⟩, fun r => denotes_of_parse h, fun r => parse_canonical⟩
    · rintro ⟨r, hr⟩
      exact ⟨r, denotes_of_parse h hr⟩
    · rintro ⟨r, hr⟩
      exact ⟨r, parse_of_denotes hr⟩

/-! ## A negative version -/

theorem ne_of_unreserved {c d : Char} (h : Unreserved c) (hd : ¬ Unreserved d) : c ≠ d := by
  rintro rfl
  exact hd h

/-- The parts of a URL without userinfo, port and escapes. -/
def smallSplit (url : List Char) : SplitUrl :=
  match (url.filter (· ≠ '\n')).dropPrefix? "https://".toList with
  | none => ⟨"", none, none, .ok none, none, "", ""⟩
  | some rest =>
    let tail := rest.dropWhile (· ∉ ['/', '?', '#'])
    ⟨"https", none, none, .ok none, some (String.ofList (rest.takeWhile (· ∉ ['/', '?', '#']))),
      String.ofList (tail.takeWhile (· ∉ ['?', '#'])),
      String.ofList (((tail.dropWhile (· ∉ ['?', '#'])).drop 1).takeWhile (· ≠ '#'))⟩

def smallPairs (query : List Char) : List (String × String) :=
  (query.splitOn '&').map fun pair =>
    (String.ofList (pair.takeWhile (· ≠ '=')), String.ofList ((pair.dropWhile (· ≠ '=')).drop 1))

theorem smallSplit_path {url : List Char} :
    ∀ c ∈ (smallSplit url).path.toList, c ≠ '\n' ∧ c ≠ '?' ∧ c ≠ '#' := by
  intro c hc
  unfold smallSplit at hc
  split at hc
  · cases hc
  · next rest hrest =>
    rw [dropPrefix_iff] at hrest
    dsimp only at hc
    rw [String.toList_ofList] at hc
    have hmem : c ∈ url.filter (· ≠ '\n') := by
      rw [hrest]
      exact List.mem_append_right _ ((List.dropWhile_suffix _).subset
        ((List.takeWhile_prefix _).subset hc))
    have hdelim := List.mem_takeWhile_imp hc
    simp only [List.mem_cons, List.not_mem_nil, or_false, not_or, decide_eq_true_eq] at hdelim
    have hfeed := (List.mem_filter.mp hmem).2
    rw [decide_eq_true_eq] at hfeed
    exact ⟨hfeed, hdelim⟩

theorem smallSplit_plain {host : String} (h : host ∈ allowedHosts) {path query rest : List Char}
    (hpath : ∀ c ∈ path, Unreserved c ∨ c = '/') (hquery : ∀ c ∈ query, Unreserved c ∨ c = '=')
    (hrest : rest = [] ∧ query = [] ∨ rest = '?' :: query) :
    smallSplit ("https://".toList ++ (host.toList ++ '/' :: (path ++ rest))) =
      ⟨"https", none, none, .ok none, some host, String.ofList ('/' :: path),
        String.ofList query⟩ := by
  have hhosts : ∀ host ∈ allowedHosts, ∀ c ∈ host.toList, c ∉ ['/', '?', '#'] ∧ c ≠ '\n' := by
    decide +kernel
  have hother : ∀ c ∈ '/' :: path, c ∉ ['?', '#'] ∧ c ≠ '\n' := by
    refine List.forall_mem_cons.mpr ⟨by decide, fun c hc => ?_⟩
    rcases hpath c hc with hc | rfl
    · simp only [List.mem_cons, List.not_mem_nil, or_false, not_or]
      exact ⟨⟨ne_of_unreserved hc (by decide), ne_of_unreserved hc (by decide)⟩,
        ne_of_unreserved hc (by decide)⟩
    · decide
  have hafter : ∀ c ∈ query, c ≠ '#' ∧ c ≠ '\n' := by
    intro c hc
    rcases hquery c hc with hc | rfl
    · exact ⟨ne_of_unreserved hc (by decide), ne_of_unreserved hc (by decide)⟩
    · decide
  have hfilter : ("https://".toList ++ (host.toList ++ '/' :: (path ++ rest))).filter (· ≠ '\n') =
      "https://".toList ++ (host.toList ++ '/' :: (path ++ rest)) := by
    rw [List.filter_eq_self]
    refine List.forall_mem_append.mpr ⟨by decide +kernel, List.forall_mem_append.mpr ⟨?_, ?_⟩⟩
    · intro c hc
      exact decide_eq_true (hhosts host h c hc).2
    · rw [← List.cons_append]
      refine List.forall_mem_append.mpr
        ⟨fun c hc => decide_eq_true (hother c hc).2, fun c hc => ?_⟩
      rcases hrest with ⟨rfl, -⟩ | rfl
      · cases hc
      · rcases List.mem_cons.mp hc with rfl | hc
        · decide
        · exact decide_eq_true (hafter c hc).2
  have hhost : (host.toList ++ '/' :: (path ++ rest)).takeWhile (· ∉ ['/', '?', '#']) =
        host.toList ∧
      (host.toList ++ '/' :: (path ++ rest)).dropWhile (· ∉ ['/', '?', '#']) =
        '/' :: path ++ rest :=
    span_append (fun c hc => decide_eq_true (hhosts host h c hc).1) fun c hc => by
      cases hc
      decide
  have htail : ('/' :: path ++ rest).takeWhile (· ∉ ['?', '#']) = '/' :: path ∧
      ('/' :: path ++ rest).dropWhile (· ∉ ['?', '#']) = rest := by
    refine span_append (fun c hc => decide_eq_true (hother c hc).1) fun c hc => ?_
    rcases hrest with ⟨rfl, -⟩ | rfl
    · cases hc
    · cases hc
      decide
  have hlast : (rest.drop 1).takeWhile (· ≠ '#') = query := by
    rcases hrest with ⟨rfl, rfl⟩ | rfl
    · rfl
    · exact List.takeWhile_eq_self_iff.mpr fun c hc => decide_eq_true (hafter c hc).1
  unfold smallSplit
  rw [hfilter, dropPrefix_iff.mpr rfl]
  dsimp only
  rw [hhost.1, hhost.2, htail.1, htail.2, hlast, String.ofList_toList]

theorem smallPairs_one {name value : List Char} (hname : ∀ c ∈ name, Unreserved c)
    (hvalue : ∀ c ∈ value, Unreserved c) :
    smallPairs (name ++ '=' :: value) = [(String.ofList name, String.ofList value)] := by
  have hsplit : (name ++ '=' :: value).splitOn '&' = [name ++ '=' :: value] := by
    apply List.splitOn_eq_singleton
    intro hmem
    simp only [List.mem_append, List.mem_cons] at hmem
    rcases hmem with hmem | hmem | hmem
    · exact ne_of_unreserved (hname _ hmem) (by decide) rfl
    · exact absurd hmem (by decide)
    · exact ne_of_unreserved (hvalue _ hmem) (by decide) rfl
  have hspan : (name ++ '=' :: value).takeWhile (· ≠ '=') = name ∧
      (name ++ '=' :: value).dropWhile (· ≠ '=') = '=' :: value :=
    span_append (fun c hc => decide_eq_true (ne_of_unreserved (hname c hc) (by decide)))
      fun c hc => by
        cases hc
        decide
  unfold smallPairs
  rw [hsplit, List.map_singleton, hspan.1, hspan.2]
  rfl

theorem ofList_slash (path : List Char) :
    String.ofList ('/' :: path) = "/" ++ String.ofList path := by
  apply String.toList_injective
  simp only [String.toList_append, String.toList_ofList]
  rfl

def smallLib : Lib where
  str := ascii
  urlparse url := .ok (smallSplit url.toList)
  parseQsl query := smallPairs query.toList
  decimal_slash := rfl
  urlparse_empty := by
    intro parts h
    cases h
    decide +kernel
  path_chars := by
    intro url parts h
    cases h
    exact smallSplit_path
  split_path := by
    intro host h path hpath
    have hnone : ∀ c ∈ ([] : List Char), Unreserved c ∨ c = '=' := nofun
    have hparts := smallSplit_plain h hpath hnone (Or.inl ⟨rfl, rfl⟩)
    have hchars : ("https://" ++ host ++ "/" ++ String.ofList path).toList =
        "https://".toList ++ (host.toList ++ '/' :: (path ++ [])) := by
      simp only [String.toList_append, String.toList_ofList, List.append_assoc, List.append_nil]
      rfl
    rw [hchars, hparts, ofList_slash]
  split_query := by
    intro host h path query hpath hquery
    have hparts := smallSplit_plain h hpath hquery (Or.inr rfl)
    have hchars : ("https://" ++ host ++ "/" ++ String.ofList path ++ "?" ++
        String.ofList query).toList =
          "https://".toList ++ (host.toList ++ '/' :: (path ++ '?' :: query)) := by
      simp only [String.toList_append, String.toList_ofList, List.append_assoc]
      rfl
    rw [hchars, hparts, ofList_slash]
  one_pair := by
    intro name value _ hname hvalue
    rw [String.toList_ofList]
    exact smallPairs_one hname hvalue

/-- `int` takes a sign, and the version is no version id. -/
theorem a_negative_version_is_accepted :
    (parseCivitaiUrl smallLib "https://civitai.com/models/123?modelVersionId=-5").toOption =
        some ⟨"civitai.com", some 123, -5⟩ ∧
      (¬ ∃ r, Denotes smallLib "https://civitai.com/models/123?modelVersionId=-5" r) ∧
      ¬ GrammarHolds smallLib "https://civitai.com/models/123?modelVersionId=-5" := by
  have hparse : (parseCivitaiUrl smallLib
      "https://civitai.com/models/123?modelVersionId=-5").toOption =
        some ⟨"civitai.com", some 123, -5⟩ := by
    decide +kernel
  have hnone : ¬ ∃ r, Denotes smallLib "https://civitai.com/models/123?modelVersionId=-5" r := by
    rintro ⟨r, hr⟩
    have hread := parse_of_denotes hr
    rw [hread] at hparse
    cases hparse
    obtain ⟨parts, -, -, -, hwrites⟩ := hr
    dsimp only at hwrites
    generalize hversion : (-5 : Int) = version at hwrites
    generalize some 123 = modelId at hwrites
    cases hwrites with
    | download hv hpath => omega
    | page hm hv hslug hpath hquery => omega
  refine ⟨hparse, hnone, fun h => hnone (h.accepted.mp ?_)⟩
  rcases hr : parseCivitaiUrl smallLib "https://civitai.com/models/123?modelVersionId=-5" with
    e | r
  · rw [hr] at hparse
    cases hparse
  · exact ⟨r, rfl⟩

end image_gen.civitai_url

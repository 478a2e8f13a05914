-- The bearer keys (`app/auth.py`): what a header presents, what the comparison of two
-- texts refuses, and the three guards that decide on them.
import ImageGen.Graph
import ImageGen.Results
import Mathlib.Data.Finset.Dedup
import Mathlib.Data.Finset.Insert

namespace image_gen.auth

open image_gen.py_str image_gen.results
open image_gen.graph (isSpace strip)

/-! ## Keys and headers -/

def Ascii (text : List Char) : Prop := ∀ c ∈ text, c.toNat < 128

instance : DecidablePred Ascii := fun text => by
  unfold Ascii
  infer_instance

/-- The parts between commas, each stripped, without the empty ones. -/
def parseKeys : Option (List Char) → Finset (List Char)
  | none => ∅
  | some raw => (((raw.splitOn ',').map strip).filter fun part => decide (part ≠ [])).toFinset

/-- The two sets as `load_keyset_from_env` leaves them, each in the order of its walks. -/
structure Keyset (apiKeys adminKeys : Option (List Char)) where
  generation : List (List Char)
  admin : List (List Char)
  generation_spec : ∀ key, key ∈ generation ↔ key ∈ parseKeys apiKeys
  admin_spec : ∀ key, key ∈ admin ↔ key ∈ parseKeys adminKeys

/-- A header value: ASGI decodes its bytes as Latin-1. -/
structure Header where
  text : List Char
  latin : ∀ c ∈ text, c.toNat < 256

/-- `str.lower` on a character of Latin-1. -/
def latinLower (c : Char) : Char :=
  if 0xC0 ≤ c.toNat ∧ c.toNat ≤ 0xDE ∧ c.toNat ≠ 0xD7 then Char.ofNat (c.toNat + 32)
  else c.toLower

def bearerPrefixLower : List Char := "bearer ".toList

/-! ## What the guards raise -/

structure HttpException where
  statusCode : Nat
  code : String
  message : String
  challenge : Option String
  deriving DecidableEq

inductive Raised
  | http (e : HttpException)
  | typeError (message : String)
  deriving DecidableEq

def authError : Raised :=
  .http ⟨401, "auth_error", "missing or invalid credentials", some "Bearer"⟩

def authScopeError : Raised := .http ⟨403, "auth_error", "admin scope required", none⟩

/-- `hmac.compare_digest` on two texts. -/
def compareDigest (a b : List Char) : Except Raised Bool :=
  if Ascii a ∧ Ascii b then .ok (decide (a = b))
  else .error (.typeError "comparing strings with non-ASCII characters is not supported")

/-! ## The guards -/

def extractBearer : Option Header → Option (List Char)
  | none => none
  | some h =>
    if (h.text.take bearerPrefixLower.length).map latinLower = bearerPrefixLower then
      match strip (h.text.drop bearerPrefixLower.length) with
      | [] => none
      | token => some token
    else none

/-- The loop of `_match_any`: every key is compared, also after a match. -/
def matchFrom (candidate : List Char) (found : Bool) (keys : List (List Char)) :
    Except Raised Bool :=
  keys.foldlM (fun found key => do
    let same ← compareDigest candidate key
    return if same then true else found) found

def matchAny (candidate : List Char) (keys : List (List Char)) : Except Raised Bool :=
  matchFrom candidate false keys

section Guards

variable {apiKeys adminKeys : Option (List Char)} (sha256 : List Char → List Char)

/-- `sha256` gives the digest in hexadecimal. -/
def kidFor (key : List Char) : List Char := (sha256 key).take 8

/-- The `or` of the two scopes: after a match in the first the second is not looked at. -/
def matchEither (token : List Char) (keyset : Keyset apiKeys adminKeys) : Except Raised Bool := do
  if ← matchAny token keyset.generation then return true
  matchAny token keyset.admin

def verifyKey (authorization : Option Header) (keyset : Keyset apiKeys adminKeys) :
    Except Raised Bool :=
  match extractBearer authorization with
  | none => .ok false
  | some token => matchEither token keyset

def requireAuth (authorization : Option Header) (keyset : Keyset apiKeys adminKeys) :
    Except Raised (List Char) :=
  match extractBearer authorization with
  | none => .error authError
  | some token => do
    if ← matchEither token keyset then return kidFor sha256 token
    throw authError

def requireAdmin (authorization : Option Header) (keyset : Keyset apiKeys adminKeys) :
    Except Raised (List Char) :=
  match extractBearer authorization with
  | none => .error authError
  | some token => do
    if ← matchAny token keyset.admin then return kidFor sha256 token
    if ← matchAny token keyset.generation then throw authScopeError
    throw authError

end Guards

/-! ## What a header presents -/

/-- The scheme is Bearer in any case, and what follows the space holds the token. -/
def Presents (authorization : Option Header) (token : List Char) : Prop :=
  ∃ h scheme rest, authorization = some h ∧ h.text = scheme ++ ' ' :: rest ∧
    scheme.map Char.toLower = "bearer".toList ∧ strip rest = token ∧ token ≠ []

theorem latinLower_eq_iff {c d : Char} (h : d.toNat < 128) :
    latinLower c = d ↔ c.toLower = d := by
  unfold latinLower
  split_ifs with hc
  · have hup : c.isUpper = false := by
      have h1 : ¬ (c.toNat ≤ 90) := by omega
      simp only [isUpper_eq, decide_eq_false_iff_not, not_and]
      intro _ hle
      exact h1 (UInt32.le_iff_toNat_le.mp hle)
    have hlow : c.toLower = c := (toLower_spec c).2.1 hup
    have hval : (Char.ofNat (c.toNat + 32)).toNat = c.toNat + 32 := by
      have hvalid : (c.toNat + 32).isValidChar := .inl (by omega)
      rw [Char.ofNat, dif_pos hvalid]
      rfl
    constructor
    · rintro rfl
      omega
    · rintro rfl
      rw [hlow] at h
      omega
  · rfl

theorem map_latinLower_iff {text lowered : List Char} (h : Ascii lowered) :
    text.map latinLower = lowered ↔ text.map Char.toLower = lowered := by
  induction text generalizing lowered with
  | nil => rfl
  | cons c rest ih =>
    cases lowered with
    | nil => simp
    | cons d more =>
      obtain ⟨hd, hmore⟩ := List.forall_mem_cons.mp h
      rw [List.map_cons, List.map_cons, List.cons_eq_cons, List.cons_eq_cons,
        latinLower_eq_iff hd, ih hmore]

theorem cut_at_scheme {scheme : List Char} (rest : List Char)
    (h : scheme.map Char.toLower = "bearer".toList) :
    (scheme ++ ' ' :: rest).take bearerPrefixLower.length = scheme ++ [' '] ∧
      (scheme ++ ' ' :: rest).drop bearerPrefixLower.length = rest := by
  have hlen : bearerPrefixLower.length = scheme.length + 1 := by
    have hmap : (scheme.map Char.toLower).length = scheme.length := List.length_map _
    rw [← hmap, h]
    rfl
  rw [hlen]
  simp [List.take_append, List.drop_append]

theorem prefix_iff (text : List Char) :
    (text.take bearerPrefixLower.length).map latinLower = bearerPrefixLower ↔
      ∃ scheme, scheme.map Char.toLower = "bearer".toList ∧
        text = scheme ++ ' ' :: text.drop bearerPrefixLower.length := by
  rw [map_latinLower_iff (by decide)]
  constructor
  · intro h
    have hsplit : bearerPrefixLower = "bearer".toList ++ [' '] := rfl
    obtain ⟨scheme, tail, htake, hscheme, htail⟩ := List.map_eq_append_iff.mp (h.trans hsplit)
    obtain ⟨c, rfl, hc⟩ := List.map_eq_singleton_iff.mp htail
    have hspace : c = ' ' := by
      by_cases hup : c.isUpper = true
      · have hlow := (toLower_spec c).2.2 hup
        rw [hc] at hlow
        cases hlow
      · rw [← hc, (toLower_spec c).2.1 (by simpa using hup)]
    subst hspace
    refine ⟨scheme, hscheme, ?_⟩
    calc text = text.take bearerPrefixLower.length ++ text.drop bearerPrefixLower.length :=
          (List.take_append_drop _ text).symm
      _ = scheme ++ ' ' :: text.drop bearerPrefixLower.length := by
          rw [htake, List.append_assoc]
          rfl
  · rintro ⟨scheme, hscheme, htext⟩
    rw [htext, (cut_at_scheme _ hscheme).1, List.map_append, hscheme]
    rfl

theorem extractBearer_eq_some_iff {authorization : Option Header} {token : List Char} :
    extractBearer authorization = some token ↔ Presents authorization token := by
  cases authorization with
  | none =>
    refine ⟨fun h => (by cases h), ?_⟩
    rintro ⟨h, -, -, hnone, -⟩
    cases hnone
  | some header =>
    constructor
    · intro h
      simp only [extractBearer] at h
      split_ifs at h with hscheme
      obtain ⟨scheme, hs, htext⟩ := (prefix_iff _).mp hscheme
      split at h
      · cases h
      · rename_i hne
        cases h
        exact ⟨header, scheme, _, rfl, htext, hs, rfl, hne⟩
    · rintro ⟨h, scheme, rest, heq, htext, hs, rfl, hne⟩
      cases heq
      obtain ⟨-, hdrop⟩ := cut_at_scheme rest hs
      rw [← htext] at hdrop
      have hscheme := (prefix_iff header.text).mpr ⟨scheme, hs, by rw [hdrop, htext]⟩
      simp only [extractBearer, hscheme, if_true, hdrop]

/-! ## The comparison -/

/-- What `compare_digest` can compare. -/
def Comparable (token : List Char) (keys : Finset (List Char)) : Prop :=
  keys = ∅ ∨ Ascii token ∧ ∀ key ∈ keys, Ascii key

theorem compareDigest_of_ascii {a b : List Char} (ha : Ascii a) (hb : Ascii b) :
    compareDigest a b = .ok (decide (a = b)) := if_pos ⟨ha, hb⟩

theorem compareDigest_raises {a b : List Char} (h : ¬ (Ascii a ∧ Ascii b)) :
    ∃ message, compareDigest a b = .error (.typeError message) := ⟨_, if_neg h⟩

theorem matchFrom_of_ascii {candidate : List Char} {keys : List (List Char)}
    (hc : Ascii candidate) (hk : ∀ key ∈ keys, Ascii key) (found : Bool) :
    matchFrom candidate found keys = .ok (found || decide (candidate ∈ keys)) := by
  induction keys generalizing found with
  | nil => simp [matchFrom, pure, Except.pure]
  | cons key rest ih =>
    obtain ⟨hkey, hrest⟩ := List.forall_mem_cons.mp hk
    have hstep := ih hrest (if decide (candidate = key) then true else found)
    unfold matchFrom at hstep ⊢
    rw [List.foldlM_cons, compareDigest_of_ascii hc hkey, ok_bind]
    refine Eq.trans hstep ?_
    by_cases heq : candidate = key
    · simp [heq]
    · simp [heq]

theorem matchFrom_raises {candidate : List Char} {keys : List (List Char)}
    (h : ¬ (Ascii candidate ∧ ∀ key ∈ keys, Ascii key)) (hne : keys ≠ []) (found : Bool) :
    ∃ message, matchFrom candidate found keys = .error (.typeError message) := by
  induction keys generalizing found with
  | nil => contradiction
  | cons key rest ih =>
    unfold matchFrom at ih ⊢
    rw [List.foldlM_cons]
    by_cases hkey : Ascii candidate ∧ Ascii key
    · rw [compareDigest_of_ascii hkey.1 hkey.2]
      have hrest : ¬ (Ascii candidate ∧ ∀ key ∈ rest, Ascii key) := fun hr =>
        h ⟨hr.1, List.forall_mem_cons.mpr ⟨hkey.2, hr.2⟩⟩
      have hne : rest ≠ [] := by
        rintro rfl
        exact hrest ⟨hkey.1, nofun⟩
      exact ih hrest hne _
    · obtain ⟨message, hraise⟩ := compareDigest_raises hkey
      rw [hraise]
      exact ⟨message, rfl⟩

theorem matchAny_of_comparable {token : List Char} {keys : Finset (List Char)}
    {walk : List (List Char)} (hw : ∀ key, key ∈ walk ↔ key ∈ keys) (h : Comparable token keys) :
    matchAny token walk = .ok (decide (token ∈ keys)) := by
  rcases h with rfl | ⟨ht, hk⟩
  · have hnil : walk = [] := List.eq_nil_iff_forall_not_mem.mpr fun key hkey => by
      simpa using (hw key).mp hkey
    rw [hnil]
    rfl
  · have hrun := matchFrom_of_ascii ht (fun key hkey => hk key ((hw key).mp hkey)) false
    rw [Bool.false_or] at hrun
    refine Eq.trans hrun ?_
    simp [hw]

theorem matchAny_raises {token : List Char} {keys : Finset (List Char)} {walk : List (List Char)}
    (hw : ∀ key, key ∈ walk ↔ key ∈ keys) (h : ¬ Comparable token keys) :
    ∃ message, matchAny token walk = .error (.typeError message) := by
  refine matchFrom_raises (fun hascii => h (.inr ⟨hascii.1, fun key hkey => ?_⟩)) ?_ false
  · exact hascii.2 key ((hw key).mpr hkey)
  · rintro rfl
    refine h (.inl (Finset.eq_empty_of_forall_notMem fun key hkey => ?_))
    simpa using (hw key).mpr hkey

/-! ## The decision -/

section Decision

variable {apiKeys adminKeys : Option (List Char)} (sha256 : List Char → List Char)

/-- The header presents one of the keys of a setting. -/
def PresentsKey (authorization : Option Header) (raw : Option (List Char)) : Prop :=
  ∃ token, Presents authorization token ∧ token ∈ parseKeys raw

/-- Who is let in, and that nothing but 401 and 403 is raised. -/
structure DecisionHolds (authorization : Option Header) (keyset : Keyset apiKeys adminKeys) :
    Prop where
  verify : ∃ known, verifyKey authorization keyset = .ok known ∧
    (known = true ↔ PresentsKey authorization apiKeys ∨ PresentsKey authorization adminKeys)
  auth_accepts : (∃ kid, requireAuth sha256 authorization keyset = .ok kid) ↔
    PresentsKey authorization apiKeys ∨ PresentsKey authorization adminKeys
  auth_refuses : requireAuth sha256 authorization keyset = .error authError ↔
    ¬ (PresentsKey authorization apiKeys ∨ PresentsKey authorization adminKeys)
  admin_accepts : (∃ kid, requireAdmin sha256 authorization keyset = .ok kid) ↔
    PresentsKey authorization adminKeys
  admin_scope : requireAdmin sha256 authorization keyset = .error authScopeError ↔
    PresentsKey authorization apiKeys ∧ ¬ PresentsKey authorization adminKeys
  admin_refuses : requireAdmin sha256 authorization keyset = .error authError ↔
    ¬ PresentsKey authorization apiKeys ∧ ¬ PresentsKey authorization adminKeys

variable {sha256} {authorization : Option Header} {keyset : Keyset apiKeys adminKeys}
  {token : List Char}

theorem presentsKey_iff (h : extractBearer authorization = some token)
    (raw : Option (List Char)) : PresentsKey authorization raw ↔ token ∈ parseKeys raw := by
  constructor
  · rintro ⟨t, ht, hmem⟩
    rw [← extractBearer_eq_some_iff, h] at ht
    cases ht
    exact hmem
  · exact fun hmem => ⟨token, extractBearer_eq_some_iff.mp h, hmem⟩

theorem not_presentsKey (h : extractBearer authorization = none) (raw : Option (List Char)) :
    ¬ PresentsKey authorization raw := by
  rintro ⟨t, ht, -⟩
  rw [← extractBearer_eq_some_iff, h] at ht
  cases ht

theorem decision_of_none (h : extractBearer authorization = none) :
    DecisionHolds sha256 authorization keyset := by
  have hnone := not_presentsKey h
  constructor <;> simp [verifyKey, requireAuth, requireAdmin, h, hnone, authError, authScopeError]

theorem matchEither_eq
    (hg : matchAny token keyset.generation = .ok (decide (token ∈ parseKeys apiKeys)))
    (ha : matchAny token keyset.admin = .ok (decide (token ∈ parseKeys adminKeys))) :
    matchEither token keyset =
      .ok (decide (token ∈ parseKeys apiKeys ∨ token ∈ parseKeys adminKeys)) := by
  unfold matchEither
  rw [hg, ha, ok_bind]
  by_cases hin : token ∈ parseKeys apiKeys
  · simp [hin, pure, Except.pure]
  · simp [hin]

theorem requireAuth_eq (h : extractBearer authorization = some token)
    (hm : matchEither token keyset =
      .ok (decide (token ∈ parseKeys apiKeys ∨ token ∈ parseKeys adminKeys))) :
    requireAuth sha256 authorization keyset =
      if token ∈ parseKeys apiKeys ∨ token ∈ parseKeys adminKeys then .ok (kidFor sha256 token)
      else .error authError := by
  simp only [requireAuth, h]
  rw [hm, ok_bind]
  by_cases hin : token ∈ parseKeys apiKeys ∨ token ∈ parseKeys adminKeys
  · rw [if_pos hin, if_pos (decide_eq_true hin)]
    rfl
  · rw [if_neg hin, if_neg (by simpa using hin)]
    rfl

theorem requireAdmin_eq (h : extractBearer authorization = some token)
    (hg : matchAny token keyset.generation = .ok (decide (token ∈ parseKeys apiKeys)))
    (ha : matchAny token keyset.admin = .ok (decide (token ∈ parseKeys adminKeys))) :
    requireAdmin sha256 authorization keyset =
      if token ∈ parseKeys adminKeys then .ok (kidFor sha256 token)
      else if token ∈ parseKeys apiKeys then .error authScopeError else .error authError := by
  simp only [requireAdmin, h]
  rw [ha, ok_bind]
  by_cases hina : token ∈ parseKeys adminKeys
  · rw [if_pos hina, if_pos (decide_eq_true hina)]
    rfl
  · rw [if_neg hina, if_neg (by simpa using hina), hg, ok_bind]
    by_cases hing : token ∈ parseKeys apiKeys
    · rw [if_pos hing, if_pos (decide_eq_true hing)]
      rfl
    · rw [if_neg hing, if_neg (by simpa using hing)]
      rfl

theorem decision_of_comparable (h : extractBearer authorization = some token)
    (hgen : Comparable token (parseKeys apiKeys))
    (hadmin : Comparable token (parseKeys adminKeys)) :
    DecisionHolds sha256 authorization keyset := by
  have hg := matchAny_of_comparable keyset.generation_spec hgen
  have ha := matchAny_of_comparable keyset.admin_spec hadmin
  have hm := matchEither_eq hg ha
  have hverify : verifyKey authorization keyset =
      .ok (decide (token ∈ parseKeys apiKeys ∨ token ∈ parseKeys adminKeys)) := by
    simp only [verifyKey, h, hm]
  have hauth : requireAuth sha256 authorization keyset = _ := requireAuth_eq h hm
  have hadm : requireAdmin sha256 authorization keyset = _ := requireAdmin_eq h hg ha
  have hkeys := presentsKey_iff h
  have hdiff : authScopeError ≠ authError := by decide
  constructor
  · exact ⟨_, hverify, by rw [decide_eq_true_iff, hkeys, hkeys]⟩
  · rw [hauth, hkeys, hkeys]
    split_ifs with hin <;> simp [hin]
  · rw [hauth, hkeys, hkeys]
    split_ifs with hin <;> simp [hin]
  · rw [hadm, hkeys]
    split_ifs with hina hing <;> simp [hina]
  · rw [hadm, hkeys, hkeys]
    by_cases hina : token ∈ parseKeys adminKeys <;> by_cases hing : token ∈ parseKeys apiKeys <;>
      simp [hina, hing, hdiff.symm]
  · rw [hadm, hkeys, hkeys]
    by_cases hina : token ∈ parseKeys adminKeys <;> by_cases hing : token ∈ parseKeys apiKeys <;>
      simp [hina, hing, hdiff]

/-- A comparison that raises is neither an acceptance nor a refusal. -/
theorem comparable_of_decision (h : extractBearer authorization = some token)
    (hd : DecisionHolds sha256 authorization keyset) :
    Comparable token (parseKeys apiKeys) ∧ Comparable token (parseKeys adminKeys) := by
  have hgen : Comparable token (parseKeys apiKeys) := by
    by_contra hne
    obtain ⟨message, hraise⟩ := matchAny_raises keyset.generation_spec hne
    obtain ⟨known, hok, -⟩ := hd.verify
    simp only [verifyKey, h, matchEither, hraise] at hok
    cases hok
  refine ⟨hgen, ?_⟩
  by_contra hne
  obtain ⟨message, hraise⟩ := matchAny_raises keyset.admin_spec hne
  have hfails : requireAdmin sha256 authorization keyset = .error (.typeError message) := by
    simp only [requireAdmin, h, hraise]
    rfl
  have haccept : PresentsKey authorization adminKeys → False := fun hin => by
    obtain ⟨kid, hok⟩ := hd.admin_accepts.mpr hin
    rw [hfails] at hok
    cases hok
  by_cases hin : PresentsKey authorization apiKeys
  · have hscope := hd.admin_scope.mpr ⟨hin, haccept⟩
    rw [hfails] at hscope
    cases hscope
  · have hrefuse := hd.admin_refuses.mpr ⟨hin, haccept⟩
    rw [hfails] at hrefuse
    cases hrefuse

/-- The guards decide as they should for exactly the headers whose token can be compared
with the keys: of ASCII, where there is a key, and the keys too. -/
theorem decision_holds_iff :
    DecisionHolds sha256 authorization keyset ↔ ∀ token, Presents authorization token →
      Comparable token (parseKeys apiKeys) ∧ Comparable token (parseKeys adminKeys) := by
  constructor
  · intro hd token ht
    exact comparable_of_decision (extractBearer_eq_some_iff.mpr ht) hd
  · intro hc
    rcases h : extractBearer authorization with _ | token
    · exact decision_of_none h
    · obtain ⟨hgen, hadmin⟩ := hc token (extractBearer_eq_some_iff.mp h)
      exact decision_of_comparable h hgen hadmin

end Decision

/-- A service with one key of each scope. -/
def twoKeys : Keyset (some "gen-key".toList) (some "admin-key".toList) where
  generation := ["gen-key".toList]
  admin := ["admin-key".toList]
  generation_spec := by
    have h : parseKeys (some "gen-key".toList) = {"gen-key".toList} := by decide +kernel
    intro key
    rw [h, Finset.mem_singleton, List.mem_singleton]
  admin_spec := by
    have h : parseKeys (some "admin-key".toList) = {"admin-key".toList} := by decide +kernel
    intro key
    rw [h, Finset.mem_singleton, List.mem_singleton]

def accented : Header := ⟨"Bearer é".toList, by decide⟩

/-- `Authorization: Bearer é`: the comparison raises, also where a wrong key is to be
answered with a plain no. -/
theorem an_accented_token_raises :
    ¬ DecisionHolds (fun key => key) (some accented) twoKeys := by
  intro hd
  obtain ⟨known, hok, -⟩ := hd.verify
  have hraise : (verifyKey (some accented) twoKeys).toOption = none := by decide +kernel
  rw [hok] at hraise
  cases hraise

end image_gen.auth

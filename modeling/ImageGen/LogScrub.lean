-- Secrets inside a logged text (`app/logging_config.py`): the three substitutions of
-- `_scrub_string`, and what they leave of a bearer key.
import ImageGen.Auth
import ImageGen.Regex
import Mathlib.Data.List.DropRight

namespace image_gen.log_scrub

open image_gen.py_str image_gen.regex
open image_gen.graph (isSpace strip)

/-! ## The patterns -/

/-- `\w`, which is a table outside of ASCII. -/
structure Words where
  isWord : Char → Bool
  ascii : ∀ c : Char, c.toNat < 128 → isWord c = (c.isAlphanum || c = '_')

/-- A letter in any case. The tables fold four letters outside of ASCII into it. -/
def sameLetter (d c : Char) : Bool :=
  c.toLower = d || (d = 'i' && (c.toNat = 0x130 || c.toNat = 0x131)) ||
    (d = 's' && c.toNat = 0x17F) || (d = 'k' && c.toNat = 0x212A)

/-- `[A-Za-z0-9]` in any case. -/
def alnum (c : Char) : Bool :=
  c.isAlphanum || c.toNat = 0x130 || c.toNat = 0x131 || c.toNat = 0x17F || c.toNat = 0x212A

/-- `[A-Za-z0-9._\-~+/=]`. -/
def tokenChar (c : Char) : Bool := alnum c || c ∈ ['.', '_', '-', '~', '+', '/', '=']

/-- `[A-Za-z0-9%]`. -/
def signatureChar (c : Char) : Bool := alnum c || c = '%'

/-- `[^\r\n]`. -/
def lineChar (c : Char) : Bool := c ≠ '\r' && c ≠ '\n'

def literal (text : String) : List (Item Char) := text.toList.map fun d => .one (sameLetter d)

def bearerPattern (words : Words) : List (Item Char) :=
  .boundary words.isWord :: literal "bearer" ++
    [.one isSpace, .star isSpace, .one tokenChar, .star tokenChar]

def signaturePattern : List (Item Char) :=
  literal "x-amz-signature=" ++ [.one signatureChar, .star signatureChar]

def authorizationPattern : List (Item Char) :=
  literal "authorization:" ++ [.star isSpace, .one lineChar, .star lineChar]

def stringScrubPatterns (words : Words) : List (List (Item Char) × List Char) :=
  [(bearerPattern words, "Bearer <redacted>".toList),
    (signaturePattern, "X-Amz-Signature=<redacted>".toList),
    (authorizationPattern, "Authorization: <redacted>".toList)]

/-- `_scrub_string`. -/
def scrubString (words : Words) (value : List Char) : List Char :=
  (stringScrubPatterns words).foldl (fun value p => sub p.1 p.2 value) value

/-! ## The classes -/

theorem toNat_of_isAlphanum {c : Char} (h : c.isAlphanum = true) :
    48 ≤ c.toNat ∧ c.toNat ≤ 57 ∨ 65 ≤ c.toNat ∧ c.toNat ≤ 90 ∨ 97 ≤ c.toNat ∧ c.toNat ≤ 122 := by
  simp only [Char.isAlphanum, isAlpha_eq, isUpper_eq, isLower_eq, Char.isDigit,
    Bool.or_eq_true, Bool.and_eq_true, decide_eq_true_eq, ge_iff_le, UInt32.le_iff_toNat_le] at h
  rcases h with (h | h) | h
  · exact .inr (.inl h)
  · exact .inr (.inr h)
  · exact .inl h

theorem not_space_of_tokenChar {c : Char} (h : tokenChar c = true) : isSpace c = false := by
  have hn : 43 ≤ c.toNat ∧ c.toNat ≤ 126 ∨ c.toNat = 0x130 ∨ c.toNat = 0x131 ∨
      c.toNat = 0x17F ∨ c.toNat = 0x212A := by
    unfold tokenChar alnum at h
    simp only [Bool.or_eq_true, decide_eq_true_eq, List.mem_cons, List.not_mem_nil, or_false] at h
    rcases h with ((((h | h) | h) | h) | h) | h
    · have := toNat_of_isAlphanum h
      omega
    · omega
    · omega
    · omega
    · omega
    · rcases h with rfl | rfl | rfl | rfl | rfl | rfl | rfl <;> decide
  simp only [isSpace, Bool.or_eq_false_iff, Bool.and_eq_false_iff, decide_eq_false_iff_not]
  omega

/-- The letters of the word have no counterpart outside of ASCII. -/
theorem word_of_sameLetter (words : Words) {d c : Char} (hd : d ∈ "bearer".toList)
    (h : sameLetter d c = true) : words.isWord c = true := by
  have hlow : c.toLower = d := by
    simp only [sameLetter, Bool.or_eq_true, Bool.and_eq_true, decide_eq_true_eq] at h
    have hne : d ≠ 'i' ∧ d ≠ 's' ∧ d ≠ 'k' := by
      refine ⟨?_, ?_, ?_⟩ <;> rintro rfl <;> revert hd <;> decide
    rcases h with ((h | h) | h) | h
    · exact h
    · exact absurd h.1 hne.1
    · exact absurd h.1 hne.2.1
    · exact absurd h.1 hne.2.2
  by_cases hup : c.isUpper = true
  · have halnum : c.isAlphanum = true := by
      simp [Char.isAlphanum, isAlpha_eq, hup]
    rw [words.ascii c (by have := toNat_of_isAlphanum halnum; omega), halnum]
    rfl
  · rw [(toLower_spec c).2.1 (by simpa using hup)] at hlow
    subst hlow
    have hall : ∀ d ∈ "bearer".toList, d.toNat < 128 ∧ d.isAlphanum = true := by decide
    obtain ⟨hascii, halnum⟩ := hall c hd
    rw [words.ascii c hascii, halnum]
    rfl

/-! ## The token after the word -/

def tokenItems : List (Item Char) := [.one tokenChar, .star tokenChar]

def tailItems : List (Item Char) := .one isSpace :: .star isSpace :: tokenItems

theorem run_tokenItems (prev : Option Char) (text : List Char) :
    run tokenItems prev text =
      if text.head?.any tokenChar then some (text.dropWhile tokenChar) else none := by
  cases text with
  | nil => rfl
  | cons c cs =>
    rcases hc : tokenChar c with _ | _
    · simp [tokenItems, run, hc]
    · have hend : run tokenItems prev (c :: cs) = some (cs.dropWhile tokenChar) := by
        simp only [tokenItems, run, hc, if_true]
        exact starThen_end tokenChar (some c) cs
      rw [hend, List.dropWhile_cons_of_pos hc]
      simp [hc]

theorem run_tailItems (prev : Option Char) (text : List Char) :
    run tailItems prev text =
      if text.head?.any isSpace then run tokenItems none (text.dropWhile isSpace) else none := by
  cases text with
  | nil => rfl
  | cons c cs =>
    rcases hc : isSpace c with _ | _
    · simp [tailItems, run, hc]
    · have hskip : run tailItems prev (c :: cs) = run tokenItems none (cs.dropWhile isSpace) := by
        simp only [tailItems, run, hc, if_true]
        refine starThen_skip (fun a b text => ?_) (fun a d ds hd => ?_) (some c) cs
        · exact (run_tokenItems a text).trans (run_tokenItems b text).symm
        · have htoken : tokenChar d = false := by
            by_contra hne
            rw [not_space_of_tokenChar (by simpa using hne)] at hd
            cases hd
          refine (run_tokenItems a (d :: ds)).trans ?_
          simp [htoken]
      rw [hskip, List.dropWhile_cons_of_pos hc]
      simp [hc]

/-! ## Matches that begin before the word -/

/-- What the literal and the boundary do not look behind: the text ends outside of a word. -/
def EndsOutside (words : Words) (text : List Char) : Prop :=
  ∀ c ∈ text.getLast?, words.isWord c = false

theorem endsOutside_suffix {words : Words} {text cs : List Char} (hsuf : cs <:+ text)
    (h : EndsOutside words text) : EndsOutside words cs := by
  obtain ⟨first, rfl⟩ := hsuf
  intro c hc
  apply h
  rw [List.getLast?_append, Option.mem_def.mp hc]
  rfl

/-- The word that stands before a token. -/
def bearerWord : List Char := "Bearer".toList

variable {words : Words}

/-- The letters of the pattern end inside of such a text or do not match. -/
theorem run_letters_cases {letters : List Char} {rest : List (Item Char)}
    (hletters : ∀ d ∈ letters, d ∈ "bearer".toList) {cs : List Char} (hne : cs ≠ [])
    (hcs : EndsOutside words cs) (prev : Option Char) :
    (∀ more, run (letters.map (fun d => .one (sameLetter d)) ++ rest) prev (cs ++ more) = none) ∨
      ∃ cs' prev', cs' ≠ [] ∧ ∀ more,
        run (letters.map (fun d => .one (sameLetter d)) ++ rest) prev (cs ++ more) =
          run rest prev' (cs' ++ more) := by
  induction letters generalizing cs prev with
  | nil => exact .inr ⟨cs, prev, hne, fun _ => rfl⟩
  | cons d ds ih =>
    obtain ⟨hd, hds⟩ := List.forall_mem_cons.mp hletters
    cases cs with
    | nil => contradiction
    | cons c cs =>
      simp only [List.map_cons, List.cons_append, run]
      rcases hsame : sameLetter d c with _ | _
      · exact .inl fun _ => rfl
      · have hmore : cs ≠ [] := by
          rintro rfl
          have hout := hcs c rfl
          rw [word_of_sameLetter words hd hsame] at hout
          cases hout
        exact ih hds hmore (endsOutside_suffix (List.suffix_cons c cs) hcs) (some c)

theorem run_bearer (prev : Option Char) (text : List Char) :
    run (bearerPattern words) prev text =
      if atBoundary words.isWord prev text then run (literal "bearer" ++ tailItems) prev text
      else none := rfl

theorem run_bearer_cases {cs : List Char} (hne : cs ≠ []) (hcs : EndsOutside words cs)
    (prev : Option Char) :
    (∀ more, run (bearerPattern words) prev (cs ++ more) = none) ∨
      ∃ cs' prev', cs' ≠ [] ∧ ∀ more,
        run (bearerPattern words) prev (cs ++ more) = run tailItems prev' (cs' ++ more) := by
  obtain ⟨c, ds, rfl⟩ := List.exists_cons_of_ne_nil hne
  have hboundary : ∀ more, atBoundary words.isWord prev (c :: ds ++ more) =
      atBoundary words.isWord prev [c] := fun _ => rfl
  simp only [run_bearer, hboundary]
  by_cases hb : atBoundary words.isWord prev [c] = true
  · simp only [hb, if_true]
    exact run_letters_cases (fun _ hd => hd) hne hcs prev
  · simp only [hb]
    exact .inl fun _ => rfl

theorem tail_cut (cs more : List Char) :
    (cs ++ (bearerWord ++ more)).dropWhile isSpace =
      cs.dropWhile isSpace ++ (bearerWord ++ more) :=
  dropWhile_append_stop (by decide) cs ("earer".toList ++ more)

theorem run_tailItems_word {cs : List Char} (hne : cs ≠ []) (more : List Char)
    (prev : Option Char) :
    run tailItems prev (cs ++ (bearerWord ++ more)) =
      if cs.head?.any isSpace ∧ (cs.dropWhile isSpace ++ bearerWord).head?.any tokenChar then
        some ((cs.dropWhile isSpace ++ (bearerWord ++ more)).dropWhile tokenChar)
      else none := by
  obtain ⟨c, ds, rfl⟩ := List.exists_cons_of_ne_nil hne
  have hhead : ((c :: ds) ++ (bearerWord ++ more)).head? = (c :: ds).head? := rfl
  have hword : ∀ v : List Char,
      (v ++ (bearerWord ++ more)).head? = (v ++ bearerWord).head? := by
    intro v
    cases v <;> rfl
  rw [run_tailItems, tail_cut, run_tokenItems, hhead, hword]
  split_ifs <;> first | rfl | (exfalso; tauto)

theorem run_bearer_local {cs : List Char} (hne : cs ≠ []) (hcs : EndsOutside words cs)
    (x : List Char) (prev : Option Char) :
    run (bearerPattern words) prev (cs ++ bearerWord ++ ' ' :: x) =
      (run (bearerPattern words) prev (cs ++ bearerWord)).map (· ++ ' ' :: x) := by
  rw [List.append_assoc]
  rcases run_bearer_cases hne hcs prev with hnone | ⟨cs', prev', hne', hrun⟩
  · rw [hnone, hnone]
    rfl
  · have hnear := run_tailItems_word hne' [] prev'
    rw [List.append_nil] at hnear
    rw [hrun, hrun, hnear, run_tailItems_word hne', ← List.append_assoc,
      dropWhile_append_stop (by decide)]
    split_ifs <;> rfl

/-- A match that begins before the word takes all of it or nothing. -/
theorem run_bearer_reach {cs rest : List Char} {prev : Option Char}
    (hne : cs ≠ []) (hcs : EndsOutside words cs)
    (h : run (bearerPattern words) prev (cs ++ bearerWord) = some rest) :
    rest = [] ∨ bearerWord.length ≤ rest.length := by
  rw [← List.append_nil bearerWord] at h
  rcases run_bearer_cases hne hcs prev with hnone | ⟨cs', prev', hne', hrun⟩
  · rw [hnone] at h
    cases h
  · rw [hrun, run_tailItems_word hne', List.append_nil, List.dropWhile_append] at h
    split_ifs at h with hmatch hall
    · cases h
      exact .inl (by decide)
    · cases h
      refine .inr ?_
      rw [List.length_append]
      omega

/-! ## Matches at the word -/

theorem run_bearer_none {c : Char} (h : sameLetter 'b' c = false) (prev : Option Char)
    (cs : List Char) : run (bearerPattern words) prev (c :: cs) = none := by
  rw [run_bearer]
  split_ifs
  · simp [literal, run, h]
  · rfl

theorem run_bearer_word {prev : Option Char} (hprev : prev.any words.isWord = false)
    (text : List Char) :
    run (bearerPattern words) prev (bearerWord ++ text) = run tailItems (some 'r') text := by
  have hboundary : atBoundary words.isWord prev (bearerWord ++ text) = true := by
    have hB : words.isWord 'B' = true := words.ascii 'B' (by decide)
    have hhead : (bearerWord ++ text).head? = some 'B' := rfl
    rw [atBoundary, hprev, hhead]
    simp [hB]
  rw [run_bearer, if_pos hboundary]
  rfl

theorem run_bearer_token {prev : Option Char} (hprev : prev.any words.isWord = false)
    {key rest : List Char} (hne : key ≠ []) (hkey : ∀ c ∈ key, tokenChar c = true)
    (hrest : ∀ c ∈ rest.head?, tokenChar c = false) :
    run (bearerPattern words) prev (bearerWord ++ ' ' :: (key ++ rest)) = some rest := by
  obtain ⟨c, cs, rfl⟩ := List.exists_cons_of_ne_nil hne
  obtain ⟨hc, hcs⟩ := List.forall_mem_cons.mp hkey
  have hspace : (' ' :: (c :: cs ++ rest)).dropWhile isSpace = c :: cs ++ rest := by
    rw [List.dropWhile_cons_of_pos (by decide), List.cons_append,
      List.dropWhile_cons_of_neg (by simp [not_space_of_tokenChar hc])]
  have htoken : (c :: cs ++ rest).dropWhile tokenChar = rest := by
    rw [List.dropWhile_append_of_pos hkey]
    cases rest with
    | nil => rfl
    | cons d ds => exact List.dropWhile_cons_of_neg (by simp [hrest d rfl])
  have hhead : (c :: cs ++ rest).head? = some c := rfl
  rw [run_bearer_word hprev, run_tailItems, hspace, run_tokenItems, htoken, hhead]
  simp [hc, isSpace]

/-- The token, and nothing behind it. -/
theorem subFrom_token {prev : Option Char} (hprev : prev.any words.isWord = false)
    {key rest : List Char} (hne : key ≠ []) (hkey : ∀ c ∈ key, tokenChar c = true)
    (hrest : ∀ c ∈ rest.head?, tokenChar c = false) :
    ∃ prev', subFrom (bearerPattern words) "Bearer <redacted>".toList 0 prev
        (bearerWord ++ ' ' :: (key ++ rest)) =
      "Bearer <redacted>".toList ++
        subFrom (bearerPattern words) "Bearer <redacted>".toList 0 prev' rest := by
  have hrun := run_bearer_token hprev hne hkey hrest
  have hassoc : bearerWord ++ ' ' :: (key ++ rest) = (bearerWord ++ ' ' :: key) ++ rest :=
    (List.append_assoc bearerWord (' ' :: key) rest).symm
  rw [hassoc] at hrun ⊢
  exact ⟨_, subFrom_match (by simp) hrun⟩

/-- A word without a token behind it stays. -/
theorem subFrom_word {prev : Option Char} (hprev : prev.any words.isWord = false) {c : Char}
    (hspace : isSpace c = false) (htoken : tokenChar c = false) (cs : List Char) :
    subFrom (bearerPattern words) "Bearer <redacted>".toList 0 prev
        (bearerWord ++ ' ' :: c :: cs) =
      bearerWord ++ ' ' ::
        subFrom (bearerPattern words) "Bearer <redacted>".toList 0 (some ' ') (c :: cs) := by
  have hrun : run (bearerPattern words) prev (bearerWord ++ ' ' :: c :: cs) = none := by
    have hdrop : (' ' :: c :: cs).dropWhile isSpace = c :: cs := by
      rw [List.dropWhile_cons_of_pos (by decide), List.dropWhile_cons_of_neg (by simp [hspace])]
    rw [run_bearer_word hprev, run_tailItems, hdrop, run_tokenItems]
    simp [htoken]
  have hkeeps : ∀ d ∈ "earer ".toList, ∀ prev t,
      run (bearerPattern words) prev (d :: t) = none := by
    intro d hd prev t
    have hall : ∀ d ∈ "earer ".toList, sameLetter 'b' d = false := by decide
    exact run_bearer_none (hall d hd) prev t
  refine (subFrom_none hrun).trans ?_
  exact congrArg ('B' :: ·) (subFrom_keeps hkeeps (some 'B') (c :: cs))

/-! ## The logged text -/

/-- A text that no word, and no token, goes into. -/
def StartsOutside (text : List Char) : Prop :=
  ∀ c ∈ text.head?, c = ' ' ∨ c = '"' ∨ c = '\'' ∨ c = '\n'

/-- A token that begins in the text runs on through a word behind it. -/
def EndsInToken (words : Words) (text : List Char) : Prop :=
  overhang (bearerPattern words) bearerWord 0 none text ≠ 0

def logged (pre key post : List Char) : List Char := pre ++ "Bearer ".toList ++ key ++ post

/-- The scrubbed text tells nothing of which of the two keys was in it. -/
def Hidden (words : Words) (pre post key₁ key₂ : List Char) : Prop :=
  scrubString words (logged pre key₁ post) = scrubString words (logged pre key₂ post)

/-- The first substitution. -/
def scrubTokens (words : Words) (text : List Char) : List Char :=
  sub (bearerPattern words) "Bearer <redacted>".toList text

/-- The other two. -/
def scrubRest (text : List Char) : List Char :=
  sub authorizationPattern "Authorization: <redacted>".toList
    (sub signaturePattern "X-Amz-Signature=<redacted>".toList text)

theorem scrubString_eq (text : List Char) :
    scrubString words text = scrubRest (scrubTokens words text) := rfl

/-- What the first substitution writes for the text before the word. -/
def writtenBefore (words : Words) (pre : List Char) : List Char :=
  written (bearerPattern words) "Bearer <redacted>".toList bearerWord 0 none pre

theorem scrubTokens_logged {pre : List Char} (hpre : EndsOutside words pre)
    (key post : List Char) :
    scrubTokens words (logged pre key post) = writtenBefore words pre ++
      subFrom (bearerPattern words) "Bearer <redacted>".toList
        (overhang (bearerPattern words) bearerWord 0 none pre) (lastOf none pre)
        (bearerWord ++ ' ' :: (key ++ post)) := by
  have htext : logged pre key post = pre ++ (bearerWord ++ ' ' :: (key ++ post)) := by
    simp only [logged, List.append_assoc]
    rfl
  obtain ⟨hwritten, hover⟩ : written (bearerPattern words) "Bearer <redacted>".toList
      (bearerWord ++ ' ' :: (key ++ post)) 0 none pre = writtenBefore words pre ∧ _ :=
    scan_local pre (fun cs hne hsuf prev =>
      run_bearer_local hne (endsOutside_suffix hsuf hpre) _ prev) 0 none
  rw [htext, scrubTokens, sub, subFrom_append, hwritten, hover]

theorem lastOf_outside {pre : List Char} (hpre : EndsOutside words pre) :
    (lastOf none pre).any words.isWord = false := by
  unfold lastOf
  rcases h : pre.getLast? with _ | c
  · rfl
  · exact hpre c h

theorem overhang_cases {pre : List Char} (hpre : EndsOutside words pre) :
    overhang (bearerPattern words) bearerWord 0 none pre = 0 ∨
      overhang (bearerPattern words) bearerWord 0 none pre = bearerWord.length := by
  refine overhang_ind (Q := fun n => n = 0 ∨ n = bearerWord.length) (.inl rfl) pre ?_ none (.inl ?_)
  · intro cs hne hsuf prev rest hrun
    rcases run_bearer_reach hne (endsOutside_suffix hsuf hpre) hrun with rfl | hlen
    · exact .inr (Nat.sub_zero _)
    · exact .inl (by omega)
  · omega

theorem not_tokenChar_of_startsOutside {post : List Char} (h : StartsOutside post) :
    ∀ c ∈ post.head?, tokenChar c = false := by
  intro c hc
  rcases h c hc with rfl | rfl | rfl | rfl <;> decide

/-- What stands before such a text does not matter. -/
theorem subFrom_post {post : List Char} (h : StartsOutside post) (prev : Option Char) :
    subFrom (bearerPattern words) "Bearer <redacted>".toList 0 prev post =
      scrubTokens words post := by
  cases post with
  | nil => rfl
  | cons c cs =>
    have hb : sameLetter 'b' c = false := by
      rcases h c rfl with rfl | rfl | rfl | rfl <;> decide
    rw [scrubTokens, sub, subFrom_none (run_bearer_none hb prev cs),
      subFrom_none (run_bearer_none hb none cs)]

/-! ## Keys of token characters -/

def Plain (key : List Char) : Prop := key ≠ [] ∧ ∀ c ∈ key, tokenChar c = true

/-- Behind a text that no token runs out of. -/
theorem scrubTokens_plain {pre key post : List Char} (hpre : EndsOutside words pre)
    (hin : ¬ EndsInToken words pre) (hkey : Plain key) (hpost : StartsOutside post) :
    scrubTokens words (logged pre key post) =
      writtenBefore words pre ++ ("Bearer <redacted>".toList ++ scrubTokens words post) := by
  obtain ⟨prev', htoken⟩ := subFrom_token (lastOf_outside hpre) hkey.1 hkey.2
    (not_tokenChar_of_startsOutside hpost)
  rw [scrubTokens_logged hpre, not_not.mp hin, htoken, subFrom_post hpost]

/-- The word goes to the token before it, and the key stays. -/
theorem scrubTokens_in_token {pre : List Char} (hpre : EndsOutside words pre)
    (hin : EndsInToken words pre) (key post : List Char) :
    scrubTokens words (logged pre key post) = writtenBefore words pre ++
      ' ' :: subFrom (bearerPattern words) "Bearer <redacted>".toList 0 (some ' ')
        (key ++ post) := by
  have hover := (overhang_cases hpre).resolve_left hin
  rw [scrubTokens_logged hpre, hover, subFrom_skip,
    subFrom_none (run_bearer_none (by decide) _ _)]

theorem scrubTokens_redacted {pre post : List Char} (hpre : EndsOutside words pre)
    (hin : ¬ EndsInToken words pre) (hpost : StartsOutside post) :
    scrubTokens words (logged pre "<redacted>".toList post) =
      writtenBefore words pre ++ ("Bearer <redacted>".toList ++ scrubTokens words post) := by
  have hall : ∀ c ∈ "<redacted>".toList, sameLetter 'b' c = false := by decide
  have hkeeps : subFrom (bearerPattern words) "Bearer <redacted>".toList 0 (some ' ')
      ("<redacted>".toList ++ post) = _ :=
    subFrom_keeps (fun c hc prev t => run_bearer_none (hall c hc) prev t) (some ' ') post
  rw [subFrom_post hpost] at hkeeps
  have hword : bearerWord ++ ' ' :: ("<redacted>".toList ++ post) =
      bearerWord ++ ' ' :: '<' :: ("redacted>".toList ++ post) := rfl
  rw [scrubTokens_logged hpre, not_not.mp hin, hword,
    subFrom_word (lastOf_outside hpre) (by decide) (by decide)]
  exact congrArg (fun t => writtenBefore words pre ++ (bearerWord ++ ' ' :: t)) hkeeps

/-! ## The other two substitutions -/

/-- `scrubRest` behind a character. -/
def restFrom (prev : Option Char) (text : List Char) : List Char :=
  subFrom authorizationPattern "Authorization: <redacted>".toList 0 prev
    (subFrom signaturePattern "X-Amz-Signature=<redacted>".toList 0 prev text)

/-- Neither of their words begins inside of the replaced token. -/
theorem scrubRest_redacted (text : List Char) :
    scrubRest ("Bearer <redacted>".toList ++ text) =
      "Bearer <redacted>".toList ++ restFrom (some '>') text := rfl

theorem scrubRest_word (text : List Char) :
    scrubRest (bearerWord ++ ' ' :: text) = bearerWord ++ ' ' :: restFrom (some ' ') text := rfl

theorem restFrom_ne_nil {text : List Char} (hne : text ≠ []) (prev : Option Char) :
    restFrom prev text ≠ [] := by
  unfold restFrom
  rw [subFrom_eq_written, subFrom_eq_written]
  exact written_ne_nil (by decide) (written_ne_nil (by decide) hne [] prev) [] prev

theorem eq_of_restFrom {text : List Char} {prev : Option Char}
    (h : restFrom prev text = "<redacted>".toList) : text = "<redacted>".toList := by
  unfold restFrom at h
  have hauth := eq_of_short (by rw [h]; decide)
  rw [hauth] at h
  have hsig := eq_of_short (by rw [h]; decide)
  rw [hsig] at h
  exact h

theorem last_scrubRest {text : List Char} (h : ∀ c ∈ text.getLast?, c = '>') :
    ∀ c ∈ (scrubRest text).getLast?, c = '>' := by
  have hauth : ∀ c ∈ "Authorization: <redacted>".toList.getLast?, c = '>' := fun _ hc =>
    (Option.some.inj hc).symm
  have hsig : ∀ c ∈ "X-Amz-Signature=<redacted>".toList.getLast?, c = '>' := fun _ hc =>
    (Option.some.inj hc).symm
  simp only [scrubRest, sub, subFrom_eq_written]
  apply last_written (by decide) hauth
  exact last_written (by decide) hsig h [] 0 none

/-- What a match of the last pattern cannot come through before a line feed. -/
def Solid (c : Char) : Prop := isSpace c = false ∧ c ≠ ':'

/-- A match ends before a character or takes it. -/
theorem reach_cases {m cs more rest : List Char} {d : Char} (h : cs ++ d :: more = m ++ rest) :
    more.length < rest.length ∨ ∃ as, m = cs ++ d :: as := by
  rcases List.append_eq_append_iff.mp h with ⟨as, hm, has⟩ | ⟨bs, -, hrest⟩
  · cases as with
    | nil =>
      rw [List.nil_append] at has
      rw [← has]
      exact .inl (Nat.lt_succ_self _)
    | cons a as =>
      obtain ⟨rfl, -⟩ := List.cons_eq_cons.mp has
      exact .inr ⟨as, hm⟩
  · rw [hrest, List.length_append, List.length_cons]
    exact .inl (by omega)

theorem signature_reach {cs more rest : List Char} {prev : Option Char}
    (h : run signaturePattern prev (cs ++ '\n' :: more) = some rest) :
    more.length < rest.length := by
  obtain ⟨m, htext, hm⟩ := run_sound h
  have hnot : '\n' ∉ m := hm.not_mem (by decide)
  rcases reach_cases htext with hlen | ⟨as, rfl⟩
  · exact hlen
  · exact absurd (by simp) hnot

/-- The white space behind the word would have to reach back to its colon. -/
theorem not_takes_authorization {cs as : List Char} (hne : cs ≠ [])
    (hsolid : ∀ c ∈ cs.getLast?, Solid c) :
    ¬ Takes authorizationPattern (cs ++ '\n' :: as) := by
  intro hm
  obtain ⟨ls, m, htext, hls, ws, line, rfl, hws, hline⟩ := takes_append hm
  have hnotls : '\n' ∉ ls := hls.not_mem (by decide)
  have hnotline : '\n' ∉ line := hline.not_mem (by decide)
  have hcut : Takes (literal "authorization" ++ [.one (sameLetter ':')]) ls := hls
  obtain ⟨word, colon, rfl, -, c, -, rfl, hc, rfl⟩ := takes_append hcut
  have hcolon : c = ':' := by
    have hlow : c.toLower = ':' := by simpa [sameLetter] using hc
    by_cases hup : c.isUpper = true
    · have := (toLower_spec c).2.2 hup
      rw [hlow] at this
      cases this
    · rwa [(toLower_spec c).2.1 (by simpa using hup)] at hlow
  subst hcolon
  have hspaces : ∃ bs, cs = word ++ [':'] ++ bs ∧ ∀ b ∈ bs, isSpace b = true := by
    rcases List.append_eq_append_iff.mp htext with ⟨bs, hls, hbs⟩ | ⟨bs, hcs, hbs⟩
    · cases bs with
      | nil =>
        exact ⟨[], by rw [hls, List.append_nil, List.append_nil], List.forall_mem_nil _⟩
      | cons b bs =>
        obtain ⟨rfl, -⟩ := List.cons_eq_cons.mp hbs
        exact absurd (by rw [hls]; simp) hnotls
    · refine ⟨bs, hcs, ?_⟩
      rcases List.append_eq_append_iff.mp hbs with ⟨ds, rfl, hds⟩ | ⟨ds, rfl, hds⟩
      · exact absurd (by rw [hds]; simp) hnotline
      · exact fun b hb => hws b (List.mem_append_left ds hb)
  obtain ⟨bs, rfl, hbs⟩ := hspaces
  rcases hlast : bs.getLast? with _ | b
  · have hsolid := hsolid ':' (by rw [List.getLast?_append, hlast]; simp)
    exact hsolid.2 rfl
  · obtain ⟨hspace, -⟩ := hsolid b (by rw [List.getLast?_append, hlast]; rfl)
    rw [hbs b (List.mem_of_getLast? hlast)] at hspace
    cases hspace

theorem authorization_reach {cs more rest : List Char} {prev : Option Char} (hne : cs ≠ [])
    (hsolid : ∀ c ∈ cs.getLast?, Solid c)
    (h : run authorizationPattern prev (cs ++ '\n' :: more) = some rest) :
    more.length < rest.length := by
  obtain ⟨m, htext, hm⟩ := run_sound h
  rcases reach_cases htext with hlen | ⟨as, rfl⟩
  · exact hlen
  · exact absurd hm (not_takes_authorization hne hsolid)

theorem sub_last_line {pat : List (Item Char)} {repl before : List Char}
    (hreach : ∀ cs, cs ≠ [] → cs <:+ before → ∀ prev rest,
      run pat prev (cs ++ ['\n', '-']) = some rest → 1 < rest.length)
    (hkeep : ∀ prev, subFrom pat repl 0 prev ['\n', '-'] = ['\n', '-']) :
    sub pat repl (before ++ ['\n', '-']) =
      written pat repl ['\n', '-'] 0 none before ++ ['\n', '-'] := by
  have hover : overhang pat ['\n', '-'] 0 none before = 0 := by
    refine overhang_ind (Q := (· = 0)) rfl before ?_ none (Nat.zero_sub _)
    intro cs hne hsuf prev rest hrun
    have hlen := hreach cs hne hsuf prev rest hrun
    simp only [List.length_cons, List.length_nil]
    omega
  rw [sub, subFrom_append, hover, hkeep]

/-- A last line behind a solid character is not touched. -/
theorem scrubRest_last_line {before : List Char} (hsolid : ∀ c ∈ before.getLast?, Solid c) :
    ∃ before', scrubRest (before ++ ['\n', '-']) = before' ++ ['\n', '-'] := by
  have hsig : sub signaturePattern "X-Amz-Signature=<redacted>".toList
      (before ++ ['\n', '-']) = _ :=
    sub_last_line (fun _ _ _ _ _ hrun => signature_reach hrun) fun _ => rfl
  have hredacted : ∀ c ∈ "X-Amz-Signature=<redacted>".toList.getLast?, Solid c := by
    rintro c ⟨⟩
    exact ⟨by decide, by decide⟩
  have hmiddle : ∀ c ∈ (written signaturePattern "X-Amz-Signature=<redacted>".toList
      ['\n', '-'] 0 none before).getLast?, Solid c :=
    last_written (by decide) hredacted hsolid ['\n', '-'] 0 none
  rw [scrubRest, hsig]
  refine ⟨_, sub_last_line (fun cs hne hsuf prev rest hrun => ?_) fun _ => rfl⟩
  refine authorization_reach hne (fun c hc => ?_) hrun
  obtain ⟨start, hstart⟩ := hsuf
  apply hmiddle
  rw [← hstart, List.getLast?_append, Option.mem_def.mp hc]
  rfl

/-! ## The keys -/

section Keys

open image_gen.auth

variable {sha256 : List Char → List Char}

/-- A key of a setting that the guard takes from some header. -/
def Accepted (sha256 : List Char → List Char) (key : List Char) : Prop :=
  ∃ apiKeys adminKeys, ∃ keyset : Keyset apiKeys adminKeys, ∃ header,
    (key ∈ parseKeys apiKeys ∨ key ∈ parseKeys adminKeys) ∧ Presents (some header) key ∧
      ∃ kid, requireAuth sha256 (some header) keyset = .ok kid

theorem head_strip {text : List Char} {c : Char} (h : (strip text).head? = some c) :
    isSpace c = false := by
  have hsub : strip text <+: text.dropWhile isSpace := List.rdropWhile_prefix isSpace _
  obtain ⟨rest, hrest⟩ := hsub
  have hhead : (text.dropWhile isSpace).head? = some c := by
    rw [← hrest, List.head?_append, h]
    rfl
  simpa [hhead] using List.head?_dropWhile_not isSpace text

theorem head_of_accepted {key : List Char} (h : Accepted sha256 key) :
    key ≠ [] ∧ ∀ c ∈ key.head?, isSpace c = false := by
  obtain ⟨-, -, -, header, -, ⟨-, -, rest, -, -, -, rfl, hne⟩, -⟩ := h
  exact ⟨hne, fun c hc => head_strip hc⟩

theorem accepted_of {key : List Char} (hparse : parseKeys (some key) = {key})
    (hascii : Ascii key) (hstrip : strip key = key) (hne : key ≠ []) : Accepted sha256 key := by
  have hlatin : ∀ c ∈ bearerWord ++ ' ' :: key, c.toNat < 256 := by
    intro c hc
    rcases List.mem_append.mp hc with hc | hc
    · have hall : ∀ c ∈ bearerWord, c.toNat < 256 := by decide
      exact hall c hc
    · rcases List.mem_cons.mp hc with rfl | hc
      · decide
      · exact (hascii c hc).trans (by decide)
  let keyset : Keyset (some key) none :=
    ⟨[key], [], fun k => by rw [hparse]; simp, fun k => by simp [parseKeys]⟩
  have hp : Presents (some ⟨bearerWord ++ ' ' :: key, hlatin⟩) key :=
    ⟨_, bearerWord, key, rfl, rfl, by decide, hstrip, hne⟩
  have hgen : Comparable key (parseKeys (some key)) := by
    refine .inr ⟨hascii, fun k hk => ?_⟩
    rw [hparse, Finset.mem_singleton] at hk
    exact hk ▸ hascii
  have hm := matchEither_eq (matchAny_of_comparable keyset.generation_spec hgen)
    (matchAny_of_comparable keyset.admin_spec (.inl rfl))
  have hin : key ∈ parseKeys (some key) := by
    rw [hparse]
    exact Finset.mem_singleton_self key
  refine ⟨_, _, keyset, _, .inl hin, hp, kidFor sha256 key, ?_⟩
  rw [requireAuth_eq (extractBearer_eq_some_iff.mpr hp) hm, if_pos (.inl hin)]

/-- What the pattern takes as a token, and the one text that it need not take. -/
def Scrubbed (key : List Char) : Prop := Plain key ∨ key = "<redacted>".toList

/-- In front of every text, and behind every text that no token runs out of, the key is
written as the keys of token characters are. -/
def HiddenElsewhere (words : Words) (sha256 : List Char → List Char) (key : List Char) : Prop :=
  ∀ pre post other, EndsOutside words pre → ¬ EndsInToken words pre → StartsOutside post →
    Accepted sha256 other → Plain other → Hidden words pre post key other

/-- Behind a text, the keys of token characters are all written alike. -/
def HidesPlain (words : Words) (sha256 : List Char → List Char) (pre : List Char) : Prop :=
  ∀ post key₁ key₂, StartsOutside post → Accepted sha256 key₁ → Accepted sha256 key₂ →
    Plain key₁ → Plain key₂ → Hidden words pre post key₁ key₂

theorem accepted_x : Accepted sha256 "x".toList :=
  accepted_of (by decide +kernel) (by decide) (by decide) (by decide)

theorem accepted_word : Accepted sha256 bearerWord :=
  accepted_of (by decide +kernel) (by decide) (by decide) (by decide)

/-- The key itself is the word before a token on the next line. -/
theorem subFrom_word_line :
    subFrom (bearerPattern words) "Bearer <redacted>".toList 0 (some ' ')
      (bearerWord ++ ['\n', '-']) = "Bearer <redacted>".toList := by
  have hspace : (some ' ').any words.isWord = false := words.ascii ' ' (by decide)
  have hrun : run (bearerPattern words) (some ' ') ((bearerWord ++ ['\n', '-']) ++ []) =
      some [] := by
    rw [List.append_nil, run_bearer_word hspace]
    rfl
  have hsub : subFrom (bearerPattern words) "Bearer <redacted>".toList 0 (some ' ')
      ((bearerWord ++ ['\n', '-']) ++ []) = _ := subFrom_match (by decide) hrun
  rwa [List.append_nil] at hsub

theorem subFrom_x_line :
    subFrom (bearerPattern words) "Bearer <redacted>".toList 0 (some ' ')
      ("x".toList ++ ['\n', '-']) = "x".toList ++ ['\n', '-'] := by
  have hall : ∀ c ∈ "x".toList ++ ['\n', '-'], sameLetter 'b' c = false := by decide
  have hkeeps : subFrom (bearerPattern words) "Bearer <redacted>".toList 0 (some ' ')
      (("x".toList ++ ['\n', '-']) ++ []) = _ :=
    subFrom_keeps (fun c hc prev t => run_bearer_none (hall c hc) prev t) (some ' ') []
  rwa [List.append_nil] at hkeeps

/-- With these two keys the last line is still there for the one, and gone for the other. -/
theorem hidesPlain_iff {pre : List Char} (hpre : EndsOutside words pre) :
    HidesPlain words sha256 pre ↔ ¬ EndsInToken words pre := by
  constructor
  · intro h hin
    have hpost : StartsOutside ['\n', '-'] := fun c hc => by
      cases hc
      exact .inr (.inr (.inr rfl))
    have heq := h ['\n', '-'] "x".toList bearerWord hpost accepted_x accepted_word
      ⟨by decide, by decide⟩ ⟨by decide, by decide⟩
    unfold Hidden at heq
    rw [scrubString_eq, scrubString_eq, scrubTokens_in_token hpre hin,
      scrubTokens_in_token hpre hin, subFrom_word_line, subFrom_x_line] at heq
    have hsolid : ∀ c ∈ (writtenBefore words pre ++ " x".toList).getLast?, Solid c := by
      intro c hc
      rw [List.getLast?_append] at hc
      cases hc
      exact ⟨by decide, by decide⟩
    have htext : writtenBefore words pre ++ ' ' :: ("x".toList ++ ['\n', '-']) =
        (writtenBefore words pre ++ " x".toList) ++ ['\n', '-'] :=
      (List.append_assoc _ " x".toList _).symm
    obtain ⟨before', hline⟩ := scrubRest_last_line hsolid
    rw [htext, hline] at heq
    have hend : ∀ c ∈ (writtenBefore words pre ++ ' ' :: "Bearer <redacted>".toList).getLast?,
        c = '>' := by
      intro c hc
      rw [List.getLast?_append] at hc
      cases hc
      rfl
    have hlast := last_scrubRest hend
    rw [← heq, List.getLast?_append] at hlast
    cases hlast '-' rfl
  · intro hin post key₁ key₂ hpost _ _ hkey₁ hkey₂
    unfold Hidden
    rw [scrubString_eq, scrubString_eq, scrubTokens_plain hpre hin hkey₁ hpost,
      scrubTokens_plain hpre hin hkey₂ hpost]

theorem endsOutside_nil : EndsOutside words [] := nofun

theorem startsOutside_nil : StartsOutside [] := nofun

theorem not_endsInToken_nil : ¬ EndsInToken words [] := fun h => h rfl

/-- Two texts of a key with nothing around it. -/
theorem scrub_alone_plain {key : List Char} (hkey : Plain key) :
    scrubString words (logged [] key []) = "Bearer <redacted>".toList := by
  rw [scrubString_eq,
    scrubTokens_plain endsOutside_nil not_endsInToken_nil hkey startsOutside_nil]
  rfl

theorem scrub_alone_begins (words : Words) {key rest : List Char} (hkey : Plain key)
    (hne : rest ≠ []) (hrest : ∀ c ∈ rest.head?, tokenChar c = false) :
    ∃ more, more ≠ [] ∧
      scrubString words (logged [] (key ++ rest) []) = "Bearer <redacted>".toList ++ more := by
  have hprev : (lastOf none []).any words.isWord = false := rfl
  obtain ⟨prev', htoken⟩ := subFrom_token hprev hkey.1 hkey.2 hrest
  refine ⟨restFrom (some '>')
    (subFrom (bearerPattern words) "Bearer <redacted>".toList 0 prev' rest), ?_, ?_⟩
  · refine restFrom_ne_nil ?_ _
    rw [subFrom_eq_written]
    exact written_ne_nil (by decide) hne [] prev'
  · have hover : overhang (bearerPattern words) bearerWord 0 none [] = 0 := rfl
    rw [scrubString_eq, scrubTokens_logged endsOutside_nil, hover, List.append_nil, htoken]
    exact scrubRest_redacted _

theorem scrub_alone_word (words : Words) {c : Char} (cs : List Char) (hspace : isSpace c = false)
    (htoken : tokenChar c = false) :
    ∃ prev, scrubString words (logged [] (c :: cs) []) = bearerWord ++ ' ' ::
      restFrom (some ' ')
        (subFrom (bearerPattern words) "Bearer <redacted>".toList 0 prev (c :: cs)) := by
  have hover : overhang (bearerPattern words) bearerWord 0 none [] = 0 := rfl
  rw [scrubString_eq, scrubTokens_logged endsOutside_nil, hover, List.append_nil,
    subFrom_word (lastOf_outside endsOutside_nil) hspace htoken]
  exact ⟨_, scrubRest_word _⟩

theorem hiddenElsewhere_iff {key : List Char} (hkey : Accepted sha256 key) :
    HiddenElsewhere words sha256 key ↔ Scrubbed key := by
  constructor
  · intro h
    have heq := h [] [] "x".toList endsOutside_nil not_endsInToken_nil startsOutside_nil accepted_x
      ⟨by decide, by decide⟩
    have hx : Plain "x".toList := ⟨by decide, by decide⟩
    unfold Hidden at heq
    rw [scrub_alone_plain hx] at heq
    obtain ⟨hne, hspace⟩ := head_of_accepted hkey
    have hsplit := List.takeWhile_append_dropWhile (p := tokenChar) (l := key)
    have hhead : ∀ c ∈ (key.dropWhile tokenChar).head?, tokenChar c = false := fun c hc => by
      simpa [Option.mem_def.mp hc] using List.head?_dropWhile_not tokenChar key
    by_cases hstart : key.takeWhile tokenChar = []
    · obtain ⟨c, cs, rfl⟩ := List.exists_cons_of_ne_nil hne
      rw [hstart, List.nil_append] at hsplit
      rw [hsplit] at hhead
      obtain ⟨prev, hword⟩ := scrub_alone_word words cs (hspace c rfl) (hhead c rfl)
      rw [hword] at heq
      have hrest := eq_of_restFrom (List.cons.inj (List.append_cancel_left heq)).2
      have hself := eq_of_short (by rw [hrest]; decide)
      rw [hself] at hrest
      exact .inr hrest
    · left
      refine ⟨hne, ?_⟩
      by_contra hplain
      have hrest : key.dropWhile tokenChar ≠ [] := by
        rw [Ne, List.dropWhile_eq_nil_iff]
        exact hplain
      obtain ⟨more, hmore, hbegins⟩ := scrub_alone_begins words
        ⟨hstart, fun c hc => List.mem_takeWhile_imp hc⟩ hrest hhead
      rw [hsplit, heq] at hbegins
      exact hmore (List.append_cancel_left ((List.append_nil _).trans hbegins)).symm
  · rintro (hplain | rfl) pre post other hpre hin hpost _ hother <;> unfold Hidden
    · rw [scrubString_eq, scrubString_eq, scrubTokens_plain hpre hin hplain hpost,
        scrubTokens_plain hpre hin hother hpost]
    · rw [scrubString_eq, scrubString_eq, scrubTokens_redacted hpre hin hpost,
        scrubTokens_plain hpre hin hother hpost]

/-- No text behind which a token has ended tells two keys of token characters apart. That
is all that can be said of the text before, and all that can be said of a key. -/
theorem tokens_hidden_iff (words : Words) (sha256 : List Char → List Char) :
    (∀ pre post key₁ key₂, EndsOutside words pre → StartsOutside post →
      Accepted sha256 key₁ → Accepted sha256 key₂ → ¬ EndsInToken words pre →
        Scrubbed key₁ → Scrubbed key₂ → Hidden words pre post key₁ key₂) ∧
    (∀ pre, EndsOutside words pre → (HidesPlain words sha256 pre ↔ ¬ EndsInToken words pre)) ∧
    (∀ key, Accepted sha256 key → (HiddenElsewhere words sha256 key ↔ Scrubbed key)) := by
  refine ⟨?_, fun pre hpre => hidesPlain_iff hpre, fun key hkey => hiddenElsewhere_iff hkey⟩
  intro pre post key₁ key₂ hpre hpost hkey₁ hkey₂ hin hscrub₁ hscrub₂
  have hx : Plain "x".toList := ⟨by decide, by decide⟩
  have h₁ := (hiddenElsewhere_iff hkey₁).mpr hscrub₁ pre post "x".toList hpre hin hpost accepted_x hx
  have h₂ := (hiddenElsewhere_iff hkey₂).mpr hscrub₂ pre post "x".toList hpre hin hpost accepted_x hx
  exact h₁.trans h₂.symm

/-- ASCII alone has word characters. -/
def asciiWords : Words where
  isWord c := c.isAlphanum || c = '_'
  ascii _ _ := rfl

/-- `$` is no token character, but a key may hold it: what follows it stays in the log. -/
theorem a_dollar_key_is_logged :
    Accepted (fun key => key) "s3cr$t".toList ∧ Accepted (fun key => key) "s3cr$u".toList ∧
      ¬ Hidden asciiWords [] [] "s3cr$t".toList "s3cr$u".toList := by
  refine ⟨?_, ?_, ?_⟩
  · exact accepted_of (by decide +kernel) (by decide) (by decide) (by decide)
  · exact accepted_of (by decide +kernel) (by decide) (by decide) (by decide)
  · unfold Hidden
    decide +kernel

end Keys

end image_gen.log_scrub

-- Python strings: the operations of `str` that look at Unicode tables, as a
-- parameter with the laws that the tables obey, and the ones built on them.
import Mathlib.Data.List.TakeWhile

namespace image_gen.py_str

/-! ## Tests of the characters of a text -/

-- Without these, a test of the characters of a text could run over all of Unicode.
instance (priority := high) decidableForallChar {P : Char → Prop} [DecidablePred P]
    (s : List Char) : Decidable (∀ c ∈ s, P c) :=
  List.decidableBAll P s

instance (priority := high) decidableExistsChar {P : Char → Prop} [DecidablePred P]
    (s : List Char) : Decidable (∃ c ∈ s, P c) :=
  List.decidableBEx P s

/-! ## URLs -/

/-- What `urllib.parse.urlparse` gives, as far as a check of a host reads it. -/
structure ParseResult where
  scheme : String
  hostname : Option String

/-! ## The tables -/

/-- `lower`, the value of a decimal digit, and `urllib.parse.unquote`. -/
structure PyStr where
  lower : List Char → List Char
  decimal : Char → Option Nat
  unquote : List Char → List Char
  /-- What `lower` returns is in lower case. -/
  lower_lower : ∀ s, ∀ c ∈ lower s, lower [c] = [c]
  /-- Lower case stays as it is, whatever stands before it. -/
  lower_append : ∀ s t, (∀ c ∈ t, lower [c] = [c]) →
    ∃ u, lower (s ++ t) = u ++ t ∧ (s = [] → u = [])
  lower_ascii : ∀ c : Char, c.toNat < 128 → c.isUpper = false → lower [c] = [c]
  lower_dot : ∀ s, lower ('.' :: s) = '.' :: lower s
  /-- No character has a dot or a slash in its lower case. -/
  mem_lower : ∀ s, ∀ c ∈ lower s, c = '.' ∨ c = '/' → c ∈ s
  decimal_digit : ∀ c : Char, c.isDigit = true → decimal c = some (c.toNat - '0'.toNat)
  decimal_dot : decimal '.' = none
  unquote_nil : unquote [] = []
  unquote_append : ∀ s t, '%' ∉ s → unquote (s ++ t) = s ++ unquote t

theorem isUpper_eq (c : Char) :
    c.isUpper = decide (c.val ≥ 'A'.val ∧ c.val ≤ 'Z'.val) := rfl

theorem isLower_eq (c : Char) :
    c.isLower = (decide (c.val ≥ 'a'.val) && decide (c.val ≤ 'z'.val)) := rfl

theorem isAlpha_eq (c : Char) : c.isAlpha = (c.isUpper || c.isLower) := rfl

theorem toLower_spec (c : Char) :
    c.toLower.isUpper = false ∧ (c.isUpper = false → c.toLower = c) ∧
      (c.isUpper = true → c.toLower.isLower = true) := by
  unfold Char.toLower
  simp only [isUpper_eq, isLower_eq]
  by_cases h : c.val ≥ 'A'.val ∧ c.val ≤ 'Z'.val
  · rw [dif_pos h]
    have h1 : 65 ≤ c.val.toNat := UInt32.le_iff_toNat_le.mp h.1
    have h2 : c.val.toNat ≤ 90 := UInt32.le_iff_toNat_le.mp h.2
    have h3 : (c.val + ('a'.val - 'A'.val)).toNat = c.val.toNat + 32 := by
      rw [UInt32.toNat_add]
      exact Nat.mod_eq_of_lt (by change c.val.toNat + 32 < _; omega)
    refine ⟨?_, fun hn => ?_, fun _ => ?_⟩
    · simp only [UInt32.le_iff_toNat_le, ge_iff_le, h3, decide_eq_false_iff_not]
      rintro ⟨-, hle⟩
      change c.val.toNat + 32 ≤ 90 at hle
      omega
    · exact absurd h (of_decide_eq_false hn)
    · simp only [UInt32.le_iff_toNat_le, ge_iff_le, h3, Bool.and_eq_true, decide_eq_true_eq]
      change 97 ≤ c.val.toNat + 32 ∧ c.val.toNat + 32 ≤ 122
      omega
  · rw [dif_neg h]
    refine ⟨decide_eq_false h, fun _ => rfl, fun hn => ?_⟩
    exact absurd (of_decide_eq_true hn) h

/-- The tables of ASCII, without the escapes of a URL. -/
def ascii : PyStr where
  lower s := s.map Char.toLower
  decimal c := if c.isDigit then some (c.toNat - '0'.toNat) else none
  unquote s := s
  lower_lower := by
    intro s c hc
    obtain ⟨a, -, rfl⟩ := List.mem_map.mp hc
    simp only [List.map_cons, List.map_nil, (toLower_spec a.toLower).2.1 (toLower_spec a).1]
  lower_append := by
    intro s t ht
    refine ⟨s.map Char.toLower, ?_, fun h => by rw [h]; rfl⟩
    have hfix : t.map Char.toLower = t := by
      refine (List.map_congr_left fun c hc => ?_).trans (List.map_id t)
      simpa using ht c hc
    rw [List.map_append, hfix]
  lower_ascii := by
    intro c _ hc
    simp only [List.map_cons, List.map_nil, (toLower_spec c).2.1 hc]
  lower_dot s := rfl
  mem_lower := by
    intro s c hc hcase
    obtain ⟨a, ha, rfl⟩ := List.mem_map.mp hc
    by_cases hup : a.isUpper = true
    · have hlow := (toLower_spec a).2.2 hup
      rcases hcase with h | h <;> (rw [h] at hlow; cases hlow)
    · rw [(toLower_spec a).2.1 (by simpa using hup)]
      exact ha
  decimal_digit c h := if_pos h
  decimal_dot := rfl
  unquote_nil := rfl
  unquote_append _ _ _ := rfl

theorem isUpper_of_isDigit {c : Char} (h : c.isDigit = true) : c.isUpper = false := by
  simp only [Char.isDigit, isUpper_eq, Bool.and_eq_true, decide_eq_true_eq,
    decide_eq_false_iff_not] at h ⊢
  rintro ⟨hge, -⟩
  have h1 : 65 ≤ c.val.toNat := UInt32.le_iff_toNat_le.mp hge
  have h2 : c.val.toNat ≤ 57 := UInt32.le_iff_toNat_le.mp h.2
  omega

theorem ascii_lower_decimal (c : Char) (h : (ascii.decimal c).isSome = true) :
    ascii.lower [c] = [c] := by
  have hdigit : c.isDigit = true := by
    by_contra hne
    simp [ascii, hne] at h
  simp [ascii, (toLower_spec c).2.1 (isUpper_of_isDigit hdigit)]

/-- In an ASCII text `lower` changes the letters from A to Z alone. -/
def AsciiLower (str : PyStr) : Prop :=
  ∀ s : List Char, (∀ c ∈ s, c.toNat < 128) → str.lower s = s.map Char.toLower

theorem ascii_asciiLower : AsciiLower ascii := fun _ _ => rfl

/-! ## Numbers -/

/-- `int(digits)`, for as many digits as `int` takes. -/
def PyStr.int (str : PyStr) (digits : List Char) : Nat :=
  digits.foldl (fun n c => 10 * n + (str.decimal c).getD 0) 0

theorem toString_digits (n : Nat) :
    (toString n).toList ≠ [] ∧ ∀ c ∈ (toString n).toList, c.isDigit = true := by
  rw [Nat.toString_eq_ofList_toDigits, String.toList_ofList]
  exact ⟨Nat.toDigits_ne_nil, fun c hc => Nat.isDigit_of_mem_toDigits (by decide) (by decide) hc⟩

theorem int_eq_ofDigitChars (str : PyStr) {digits : List Char}
    (h : ∀ c ∈ digits, c.isDigit = true) : str.int digits = Nat.ofDigitChars 10 digits 0 := by
  have hfold : ∀ (digits : List Char) (m : Nat), (∀ c ∈ digits, c.isDigit = true) →
      digits.foldl (fun n c => 10 * n + (str.decimal c).getD 0) m =
        Nat.ofDigitChars 10 digits m := by
    intro digits
    induction digits with
    | nil => intro m _; simp
    | cons c rest ih =>
      intro m hc
      rw [List.foldl_cons, Nat.ofDigitChars_cons, str.decimal_digit c (hc c (by simp))]
      exact ih _ fun c' hc' => hc c' (List.mem_cons_of_mem c hc')
  exact hfold digits 0 h

theorem int_toString (str : PyStr) (n : Nat) : str.int (toString n).toList = n := by
  rw [int_eq_ofDigitChars str (toString_digits n).2, Nat.toString_eq_ofList_toDigits,
    String.toList_ofList]
  exact Nat.ofDigitChars_ten_toDigits

theorem toString_injective {m n : Nat} (h : (toString m).toList = (toString n).toList) :
    m = n := by
  rw [← int_toString ascii m, ← int_toString ascii n, h]

/-! ## Lower case -/

section Lower

variable {str : PyStr}

theorem lower_eq {s : List Char} (h : ∀ c ∈ s, str.lower [c] = [c]) : str.lower s = s := by
  obtain ⟨u, hu, hnil⟩ := str.lower_append [] s h
  rw [List.nil_append, hnil rfl, List.nil_append] at hu
  exact hu

theorem lower_suffix (s : List Char) {t : List Char} (h : ∀ c ∈ t, str.lower [c] = [c]) :
    t <:+ str.lower (s ++ t) := by
  obtain ⟨u, hu, -⟩ := str.lower_append s t h
  exact ⟨u, hu.symm⟩

end Lower

/-! ## File names -/

/-- `Path(path).name`, on a POSIX system. -/
def pathName (path : List Char) : List Char :=
  ((path.splitOn '/').filter fun part => part ≠ [] ∧ part ≠ ['.']).getLastD []

/-- `Path(path).suffix`: what follows the last dot of the name, with the dot. -/
def pathSuffix (path : List Char) : List Char :=
  let back := (pathName path).reverse
  let ext := (back.takeWhile (· ≠ '.')).reverse
  let stem := (back.dropWhile (· ≠ '.')).drop 1
  if stem ≠ [] ∧ ext ≠ [] then '.' :: ext else []

theorem not_mem_splitOn {a : Char} {s part : List Char} (h : part ∈ s.splitOn a) : a ∉ part := by
  induction s generalizing part with
  | nil =>
    rw [List.splitOn_nil, List.mem_singleton] at h
    simp [h]
  | cons c rest ih =>
    rw [List.splitOn_cons_eq_if_modifyHead] at h
    split at h
    · rcases List.mem_cons.mp h with rfl | hrest
      · simp
      · exact ih hrest
    · rename_i hc
      rcases hsplit : rest.splitOn a with _ | ⟨first, others⟩
      · exact absurd hsplit (List.splitOn_ne_nil a rest)
      · rw [hsplit, List.modifyHead_cons] at h
        rcases List.mem_cons.mp h with rfl | hother
        · have hfirst : a ∉ first := ih (by rw [hsplit]; exact List.mem_cons_self)
          simp only [beq_iff_eq] at hc
          simp only [List.mem_cons, not_or]
          exact ⟨fun heq => hc heq.symm, hfirst⟩
        · exact ih (by rw [hsplit]; exact List.mem_cons_of_mem _ hother)

theorem slash_not_mem_pathName (path : List Char) : '/' ∉ pathName path := by
  unfold pathName
  rcases hlast : (path.splitOn '/').filter (fun part => decide (part ≠ [] ∧ part ≠ ['.'])) with
    _ | ⟨part, parts⟩
  · simp
  · have hmem : (part :: parts).getLastD [] ∈ part :: parts := by
      rw [List.getLastD_cons]
      exact List.getLastD_mem_cons
    rw [← hlast] at hmem ⊢
    exact not_mem_splitOn (List.mem_filter.mp hmem).1

/-- A suffix is empty, or a dot and a text without a dot and without a slash. -/
theorem pathSuffix_spec (path : List Char) :
    pathSuffix path = [] ∨
      ∃ ext, pathSuffix path = '.' :: ext ∧ ext ≠ [] ∧ '.' ∉ ext ∧ '/' ∉ ext := by
  unfold pathSuffix
  dsimp only
  split
  · rename_i h
    refine Or.inr ⟨_, rfl, h.2, ?_, ?_⟩
    · intro hdot
      have hkept := List.mem_takeWhile_imp (List.mem_reverse.mp hdot)
      simp at hkept
    · intro hslash
      have hmem := (List.takeWhile_prefix _).subset (List.mem_reverse.mp hslash)
      exact slash_not_mem_pathName path (List.mem_reverse.mp hmem)
  · exact Or.inl rfl

end image_gen.py_str

-- The timestamps of the tables. `_now` stores `datetime.now(UTC).isoformat()`,
-- and the scans order the texts: `ORDER BY created_at`, `updated_at < ?`. The
-- model of the table counts microseconds instead.
import ImageGen.Calendar
import ImageGen.Reaper

namespace image_gen.timestamps

open image_gen.calendar image_gen.job_store image_gen.reaper

/-! ## The text -/

/-- `%04d` and `%02d`, of a number that is not wider. -/
def padded : Nat → Nat → List Char
  | 0, _ => []
  | width + 1, n => padded width (n / 10) ++ [Nat.digitChar (n % 10)]

/-- No fraction is written for 0 microseconds. -/
def fraction (microsecond : Nat) : List Char :=
  if microsecond = 0 then [] else '.' :: padded 6 microsecond

def utcOffset : List Char := ['+', '0', '0', ':', '0', '0']

/-- `isoformat`. -/
def isoformat (d : DateTime) : String :=
  String.ofList (padded 4 d.year ++ '-' :: padded 2 d.month ++ '-' :: padded 2 d.day ++
    'T' :: padded 2 d.hour ++ ':' :: padded 2 d.minute ++ ':' :: padded 2 d.second ++
    fraction d.microsecond ++ utcOffset)

/-- How SQLite compares two texts. -/
def TextLt (a b : String) : Prop := a.toUTF8.data.toList < b.toUTF8.data.toList

instance (a b : String) : Decidable (TextLt a b) := by unfold TextLt; infer_instance

/-! ## Bytes -/

/-- The characters that are one byte. -/
def Ascii (text : List Char) : Prop := ∀ c ∈ text, c.toNat < 128

theorem bytes_ascii {text : List Char} (h : Ascii text) :
    (String.ofList text).toUTF8.data.toList = text.map fun c => c.val.toUInt8 := by
  have hchars : text.flatMap String.utf8EncodeChar = text.map fun c => c.val.toUInt8 := by
    induction text with
    | nil => simp
    | cons c text ih =>
      have hc : c.val.toNat < 128 := h c (by simp)
      have hsize : c.utf8Size = 1 := by
        unfold Char.utf8Size
        have hle : c.val ≤ 127 := UInt32.le_iff_toNat_le.mpr (Nat.le_of_lt_succ hc)
        exact if_pos hle
      rw [List.flatMap_cons, String.utf8EncodeChar_eq_singleton hsize,
        ih fun c' hc' => h c' (by simp [hc'])]
      simp
  unfold String.toUTF8
  rw [String.toByteArray_ofList, List.utf8Encode, List.toList_data_toByteArray, hchars]

/-- The bytes of such texts are ordered as the characters are. -/
theorem textLt_iff {a b : List Char} (ha : Ascii a) (hb : Ascii b) :
    TextLt (String.ofList a) (String.ofList b) ↔ a < b := by
  unfold TextLt
  rw [bytes_ascii ha, bytes_ascii hb]
  induction a generalizing b with
  | nil =>
    cases b with
    | nil => simp
    | cons d b => simp
  | cons c a ih =>
    cases b with
    | nil => simp
    | cons d b =>
      have hc : c.val.toNat < 128 := ha c (by simp)
      have hd : d.val.toNat < 128 := hb d (by simp)
      have hlt : c.val.toUInt8 < d.val.toUInt8 ↔ c < d := by
        rw [Char.lt_def, UInt8.lt_iff_toNat_lt, UInt32.lt_iff_toNat_lt, UInt32.toNat_toUInt8,
          UInt32.toNat_toUInt8, Nat.mod_eq_of_lt (by omega), Nat.mod_eq_of_lt (by omega)]
      have heq : c.val.toUInt8 = d.val.toUInt8 ↔ c = d := by
        rw [← UInt8.toNat_inj, UInt32.toNat_toUInt8, UInt32.toNat_toUInt8,
          Nat.mod_eq_of_lt (by omega), Nat.mod_eq_of_lt (by omega), UInt32.toNat_inj, Char.val_inj]
      rw [List.map_cons, List.map_cons, List.cons_lt_cons_iff, List.cons_lt_cons_iff, hlt, heq,
        ih (fun c' hc' => ha c' (by simp [hc'])) (fun d' hd' => hb d' (by simp [hd']))]

/-! ## Numbers of one width -/

theorem digitChar_spec {n : Nat} (h : n < 10) :
    (Nat.digitChar n).toNat = '0'.toNat + n := by
  interval_cases n <;> decide

theorem digitChar_lt_iff {m n : Nat} (hm : m < 10) (hn : n < 10) :
    Nat.digitChar m < Nat.digitChar n ↔ m < n := by
  have h : Nat.digitChar m < Nat.digitChar n ↔
      (Nat.digitChar m).toNat < (Nat.digitChar n).toNat := by
    rw [Char.lt_def, UInt32.lt_iff_toNat_lt]
    rfl
  rw [h, digitChar_spec hm, digitChar_spec hn]
  omega

theorem digitChar_inj {m n : Nat} (hm : m < 10) (hn : n < 10) :
    Nat.digitChar m = Nat.digitChar n ↔ m = n := by
  refine ⟨fun h => ?_, fun h => by rw [h]⟩
  have hsame := congrArg Char.toNat h
  rw [digitChar_spec hm, digitChar_spec hn] at hsame
  omega

/-- Two texts that begin with padded numbers are ordered by the numbers, and
then by what follows. -/
theorem padded_lt_iff {width m n : Nat} (hm : m < 10 ^ width) (hn : n < 10 ^ width)
    (s t : List Char) :
    padded width m ++ s < padded width n ++ t ↔ m < n ∨ m = n ∧ s < t := by
  induction width generalizing m n s t with
  | zero =>
    have hzero : m = n := by omega
    simp [padded, hzero]
  | succ width ih =>
    rw [Nat.pow_succ] at hm hn
    have hm' := Nat.mod_lt m (by omega : 0 < 10)
    have hn' := Nat.mod_lt n (by omega : 0 < 10)
    have hfirst := ih (by omega : m / 10 < 10 ^ width) (by omega : n / 10 < 10 ^ width)
      (Nat.digitChar (m % 10) :: s) (Nat.digitChar (n % 10) :: t)
    rw [List.cons_lt_cons_iff, digitChar_lt_iff hm' hn', digitChar_inj hm' hn'] at hfirst
    rw [padded, padded, List.append_assoc, List.append_assoc, List.singleton_append,
      List.singleton_append, hfirst]
    have hlt : m < n ↔ m / 10 < n / 10 ∨ m / 10 = n / 10 ∧ m % 10 < n % 10 := by omega
    have heq : m = n ↔ m / 10 = n / 10 ∧ m % 10 = n % 10 := by omega
    rw [hlt, heq]
    simp only [and_or_left, or_assoc, and_assoc]

/-- Without a fraction the offset comes next, and its sign is before the point. -/
theorem fraction_lt_iff {m n : Nat} (hm : m < 1000000) (hn : n < 1000000) :
    fraction m ++ utcOffset < fraction n ++ utcOffset ↔ m < n := by
  have hsign : ('+' : Char) < '.' ∧ ¬ ('.' : Char) < '+' := by decide
  unfold fraction
  split
  · split
    · have := List.lt_irrefl ([] ++ utcOffset)
      simp_all
    · simp [utcOffset, List.cons_lt_cons_iff, hsign]
      omega
  · split
    · simp [utcOffset, List.cons_lt_cons_iff, hsign]
      omega
    · rw [List.cons_append, List.cons_append, List.cons_lt_cons_self,
        padded_lt_iff (by omega) (by omega)]
      simp

theorem ascii_padded (width n : Nat) : Ascii (padded width n) := by
  induction width generalizing n with
  | zero => simp [padded, Ascii]
  | succ width ih =>
    intro c hc
    rcases List.mem_append.mp hc with hc | hc
    · exact ih _ c hc
    · rw [List.mem_singleton.mp hc, digitChar_spec (Nat.mod_lt n (by omega))]
      have hzero : '0'.toNat = 48 := by decide
      omega

/-! ## The order of the texts -/

theorem ascii_isoformat (d : DateTime) :
    Ascii (padded 4 d.year ++ '-' :: padded 2 d.month ++ '-' :: padded 2 d.day ++
      'T' :: padded 2 d.hour ++ ':' :: padded 2 d.minute ++ ':' :: padded 2 d.second ++
      fraction d.microsecond ++ utcOffset) := by
  have hsigns : ('-').toNat < 128 ∧ ('T').toNat < 128 ∧ (':').toNat < 128 ∧ ('.').toNat < 128 ∧
      ∀ c ∈ utcOffset, c.toNat < 128 := by decide
  obtain ⟨hdash, hsep, hcolon, hpoint, hoffset⟩ := hsigns
  have hfraction : Ascii (fraction d.microsecond) := by
    unfold fraction
    split
    · simp [Ascii]
    · intro c hc
      rcases List.mem_cons.mp hc with rfl | hc
      · exact hpoint
      · exact ascii_padded _ _ c hc
  intro c hc
  simp only [List.append_assoc, List.cons_append, List.mem_append, List.mem_cons] at hc
  rcases hc with hc | rfl | hc | rfl | hc | rfl | hc | rfl | hc | rfl | hc | hc | hc
  all_goals first
    | assumption
    | exact ascii_padded _ _ c hc
    | exact hfraction c hc
    | exact hoffset c hc

/-- `isoformat` keeps the order of the fields. -/
theorem isoformat_lt_iff (d e : DateTime) :
    TextLt (isoformat d) (isoformat e) ↔ d.fields < e.fields := by
  unfold isoformat
  rw [textLt_iff (ascii_isoformat d) (ascii_isoformat e)]
  have hyear (x : DateTime) : x.year < 10 ^ 4 := by have := x.year_range; omega
  have hmonth (x : DateTime) : x.month < 10 ^ 2 := by have := x.month_range; omega
  have hday (x : DateTime) : x.day < 10 ^ 2 := by
    have hle := daysInMonth_le x.year x.month_range.1 x.month_range.2
    have := x.day_range
    omega
  have hhour (x : DateTime) : x.hour < 10 ^ 2 := by have := x.hour_lt; omega
  have hminute (x : DateTime) : x.minute < 10 ^ 2 := by have := x.minute_lt; omega
  have hsecond (x : DateTime) : x.second < 10 ^ 2 := by have := x.second_lt; omega
  simp only [List.append_assoc, List.cons_append, padded_lt_iff (hyear d) (hyear e),
    padded_lt_iff (hmonth d) (hmonth e), padded_lt_iff (hday d) (hday e),
    padded_lt_iff (hhour d) (hhour e), padded_lt_iff (hminute d) (hminute e),
    padded_lt_iff (hsecond d) (hsecond e), fraction_lt_iff d.microsecond_lt e.microsecond_lt,
    List.cons_lt_cons_self, DateTime.fields, List.cons_lt_cons_iff, List.not_lt_nil, and_false,
    or_false]

/-- The texts are ordered as the instants are. -/
theorem textLt_iff_micros (d e : DateTime) :
    TextLt (isoformat d) (isoformat e) ↔ d.micros < e.micros :=
  (isoformat_lt_iff d e).trans (d.fields_lt_iff e)

/-! ## The scans -/

/-- A row of `jobs` with the two times that it holds as text. -/
structure Row where
  job : Job
  created : DateTime
  updated : DateTime
  createdAt_eq : job.createdAt = created.micros
  updatedAt_eq : job.updatedAt = updated.micros

namespace Row

def createdAt (r : Row) : String := isoformat r.created

def updatedAt (r : Row) : String := isoformat r.updated

end Row

/-- What `SELECT .. WHERE .. ORDER BY key ASC` may answer. Rows of one key come
in any order. -/
def Ordered (table : List Row) (p : Row → Bool) (key : Row → String) (rows : List Row) : Prop :=
  rows.Perm (table.filter p) ∧ rows.Pairwise fun a b => ¬ TextLt (key b) (key a)

/-- `status IN ('queued', 'running')`. -/
def Row.nonTerminal (r : Row) : Bool := !decide r.job.status.Terminal

/-- The SELECT of `scan_non_terminal`. -/
def ScansNonTerminal (table rows : List Row) : Prop :=
  Ordered table Row.nonTerminal Row.createdAt rows

/-- The SELECT of `scan_webhook_candidates`. -/
def ScansWebhookCandidates (table rows : List Row) : Prop :=
  Ordered table (fun r => decide r.job.WebhookCandidate) Row.updatedAt rows

/-- The SELECT of `reap_once`. The cutoff may raise. -/
def reapSelect (ttlSeconds : Int) (now : DateTime) (table : List Row) : Option (List Row) :=
  (now.minusSeconds ttlSeconds).map fun cutoff =>
    table.filter fun r => decide (r.job.status = .completed ∧ r.job.fetchedAt = none ∧
      TextLt r.updatedAt (isoformat cutoff))

/-- The same answer, in order of time. -/
theorem ordered_iff (table : List Row) (p : Row → Bool) (time : Row → DateTime)
    (instant : Row → Nat) (h : ∀ r, instant r = (time r).micros) (rows : List Row) :
    Ordered table p (fun r => isoformat (time r)) rows ↔
      rows.Perm (table.filter p) ∧ rows.Pairwise fun a b => instant a ≤ instant b := by
  unfold Ordered
  have hpair (a b : Row) :
      ¬ TextLt (isoformat (time b)) (isoformat (time a)) ↔ instant a ≤ instant b := by
    rw [textLt_iff_micros, h, h, Nat.not_lt]
  simp only [hpair]

theorem reapSelect_eq (ttlSeconds : Int) (now : DateTime) (table : List Row) :
    reapSelect ttlSeconds now table = (now.minusSeconds ttlSeconds).map fun _ =>
      table.filter fun r => decide (Reapable (ttlSeconds * 1000000) now.micros r.job) := by
  unfold reapSelect
  cases hcutoff : now.minusSeconds ttlSeconds with
  | none => rfl
  | some cutoff =>
    have hmicros := DateTime.micros_minusSeconds hcutoff
    have hsame (r : Row) : TextLt r.updatedAt (isoformat cutoff) ↔
        (r.job.updatedAt : Int) < now.micros - ttlSeconds * 1000000 := by
      unfold Row.updatedAt
      rw [textLt_iff_micros, r.updatedAt_eq]
      omega
    simp only [Option.map_some, hsame]
    rfl

/-- The texts of two times are ordered as the times are, with and without a
fraction, and so the scans select and order the rows by time. -/
theorem texts_order_as_times :
    (∀ d e : DateTime, (d.fields < e.fields ↔ TextLt (isoformat d) (isoformat e)) ∧
      (d.fields < e.fields ↔ d.micros < e.micros)) ∧
    (∀ ttlSeconds now table, reapSelect ttlSeconds now table =
      (now.minusSeconds ttlSeconds).map fun _ =>
        table.filter fun r => decide (Reapable (ttlSeconds * 1000000) now.micros r.job)) ∧
    (∀ table rows, ScansNonTerminal table rows ↔ rows.Perm (table.filter Row.nonTerminal) ∧
      rows.Pairwise fun a b => a.job.createdAt ≤ b.job.createdAt) ∧
    (∀ table rows, ScansWebhookCandidates table rows ↔
      rows.Perm (table.filter fun r => decide r.job.WebhookCandidate) ∧
        rows.Pairwise fun a b => a.job.updatedAt ≤ b.job.updatedAt) := by
  refine ⟨fun d e => ⟨(isoformat_lt_iff d e).symm, d.fields_lt_iff e⟩, reapSelect_eq, ?_, ?_⟩
  · intro table rows
    exact ordered_iff table Row.nonTerminal Row.created (fun r => r.job.createdAt)
      Row.createdAt_eq rows
  · intro table rows
    exact ordered_iff table (fun r => decide r.job.WebhookCandidate) Row.updated
      (fun r => r.job.updatedAt) Row.updatedAt_eq rows

/-! ## The model of the table -/

/-- The scan of the model is one that the SELECT may answer. -/
theorem scanNonTerminal_scans (table : List Row) :
    ∃ rows, ScansNonTerminal table rows ∧
      rows.map Row.job = Store.scanNonTerminal (table.map Row.job) := by
  have hleads : Store.scanNonTerminal (table.map Row.job) =
      ((table.filter Row.nonTerminal).mergeSort
        fun a b => a.job.createdAt ≤ b.job.createdAt).map Row.job := by
    unfold Store.scanNonTerminal
    rw [List.filter_map, List.map_mergeSort]
    · rfl
    · intros; rfl
  refine ⟨_, ?_, hleads.symm⟩
  apply (ordered_iff table Row.nonTerminal Row.created (fun r => r.job.createdAt)
    Row.createdAt_eq _).mpr
  refine ⟨List.mergeSort_perm _ _, ?_⟩
  have hsorted := @List.pairwise_mergeSort _
    (fun a b : Row => decide (a.job.createdAt ≤ b.job.createdAt))
    (by simp only [decide_eq_true_eq]; omega) (by simp; omega) (table.filter Row.nonTerminal)
  simpa using hsorted

/-- A pass of the reaper goes through what its SELECT answers. -/
theorem scanned_eq {ttlSeconds : Int} {now : DateTime} {table rows : List Row}
    (h : reapSelect ttlSeconds now table = some rows) :
    targets (rows.map Row.job) =
      scanned (ttlSeconds * 1000000) now.micros (table.map Row.job) := by
  rw [reapSelect_eq] at h
  obtain ⟨cutoff, -, rfl⟩ := Option.map_eq_some_iff.mp h
  unfold scanned
  rw [List.filter_map]
  rfl

end image_gen.timestamps

-- `_stream_download` (`app/loras/civitai.py`): the loop that writes, hashes and
-- counts, with its three checks, for any chunks and any readings.
import ImageGen.CivitaiFetch

namespace image_gen.stream_download

open image_gen.fetch_table image_gen.civitai_fetch

abbrev Bytes := List UInt8

def progressUpdateEvery : Nat := 4 * 1024 * 1024

def minThroughputBytesPerSec : Nat := 10 * 1024

def throughputGraceSeconds : ℚ := 30

def diskRecheckEveryBytes : Nat := 16 * 1024 * 1024

def diskRecheckHeadroomMultiplier : Int := 2

/-! ## What the loop meets -/

/-- Python's floats: the quotient as it is rounded, and the format `.0f`. -/
structure Floats where
  div : Nat → ℚ → ℚ
  format : ℚ → String

structure Config where
  fileMaxBytes : Int
  requestId : String
  expectedSize : Int
  floats : Floats
  /-- The hexdigest. -/
  sha256 : Bytes → String

/-- The exceptions that only this loop raises. -/
def Own : Exc → Prop
  | .downloadTooLarge _ => True
  | .slowDownload _ => True
  | .midStreamDiskFull _ => True
  | _ => False

/-- What raises from outside: the stream, the file system, the database, a
timeout or a cancellation. -/
abbrev Fault := { e : Exc // ¬ Own e }

/-- A chunk, with what its iteration meets. -/
structure Tick where
  chunk : Bytes
  /-- `f.write` raises, with the first bytes of the chunk in the file. -/
  writeFault : Option (Fault × Nat)
  /-- Seconds since the start. -/
  elapsed : ℚ
  free : Except Fault Nat
  now : Nat
  /-- `set_progress` raises, with the value stored or without. -/
  progressFault : Option (Fault × Bool)

/-! ## The loop -/

structure Local where
  /-- The temporary file. -/
  file : Bytes
  /-- What the hasher has consumed. -/
  hashed : Bytes
  written : Nat
  lastProgressUpdate : Nat
  lastDiskCheck : Nat
  /-- Every value that was stored as the progress. -/
  recorded : List Nat
  table : Table

abbrev Result (α : Type) := Except Exc α × Local

def andThen (r : Result Unit) (f : Local → Result Unit) : Result Unit :=
  match r with
  | (.ok (), s) => f s
  | (.error e, s) => (.error e, s)

section Loop

variable (cfg : Config)

def store (now : Nat) (s : Local) : Local :=
  { s with
    recorded := s.recorded ++ [s.written]
    table := s.table.setProgress cfg.requestId s.written now }

/-- `set_progress`, of all that was written. -/
def setProgress (now : Nat) (fault : Option (Fault × Bool)) (s : Local) : Result Unit :=
  match fault with
  | none => (.ok (), store cfg now s)
  | some (e, true) => (.error e, store cfg now s)
  | some (e, false) => (.error e, s)

def checkThroughput (t : Tick) (s : Local) : Result Unit :=
  if throughputGraceSeconds < t.elapsed then
    let rate := cfg.floats.div s.written t.elapsed
    if rate < minThroughputBytesPerSec then
      (.error (.slowDownload ("throughput " ++ cfg.floats.format rate ++ " B/s below floor " ++
        toString minThroughputBytesPerSec ++ " B/s after " ++ cfg.floats.format t.elapsed ++
        "s")), s)
    else (.ok (), s)
  else (.ok (), s)

def checkDisk (t : Tick) (s : Local) : Result Unit :=
  if diskRecheckEveryBytes ≤ s.written - s.lastDiskCheck then
    let s' := { s with lastDiskCheck := s.written }
    let remaining := max 0 (cfg.expectedSize - s.written)
    match t.free with
    | .error e => (.error e, s')
    | .ok free =>
      if free < remaining * diskRecheckHeadroomMultiplier then
        (.error (.midStreamDiskFull ("disk free " ++ toString free ++ " < remaining " ++
          toString remaining ++ " x headroom " ++ toString diskRecheckHeadroomMultiplier)), s')
      else (.ok (), s')
  else (.ok (), s)

def reportProgress (t : Tick) (s : Local) : Result Unit :=
  if progressUpdateEvery ≤ s.written - s.lastProgressUpdate then
    andThen (setProgress cfg t.now t.progressFault s) fun s' =>
      (.ok (), { s' with lastProgressUpdate := s'.written })
  else (.ok (), s)

/-- The write, the hash and the count. -/
def accept (chunk : Bytes) (s : Local) : Local :=
  { s with
    file := s.file ++ chunk
    hashed := s.hashed ++ chunk
    written := s.written + chunk.length }

/-- One turn of the loop. -/
def iterate (t : Tick) (s : Local) : Result Unit :=
  if t.chunk = [] then (.ok (), s)
  else if cfg.fileMaxBytes ≠ 0 ∧ cfg.fileMaxBytes < s.written + t.chunk.length then
    (.error (.downloadTooLarge ("streamed " ++ toString (s.written + t.chunk.length) ++
      " bytes exceeds cap " ++ toString cfg.fileMaxBytes)), s)
  else
    match t.writeFault with
    | some (e, n) => (.error e, { s with file := s.file ++ t.chunk.take n })
    | none =>
      andThen (andThen (checkThroughput cfg t (accept t.chunk s)) (checkDisk cfg t))
        (reportProgress cfg t)

def loop : List Tick → Local → Result Unit
  | [], s => (.ok (), s)
  | t :: ticks, s => andThen (iterate cfg t s) (loop ticks)

/-- The file is open, and nothing was read yet. -/
def start (table : Table) : Local := ⟨[], [], 0, 0, 0, [], table⟩

/-- How the stream goes on after its chunks: it raises, or it is over and the
last progress is stored. -/
inductive Ending
  | raises (e : Fault)
  | ended (now : Nat) (fault : Option (Fault × Bool))

/-- `_stream_download`, from the opened file on. -/
def streamDownload (ticks : List Tick) (ending : Ending) (table : Table) : Result String :=
  match loop cfg ticks (start table) with
  | (.error e, s) => (.error e, s)
  | (.ok (), s) =>
    match ending with
    | .raises e => (.error e, s)
    | .ended now fault =>
      match setProgress cfg now fault s with
      | (.ok (), s') => (.ok (cfg.sha256 s'.hashed), s')
      | (.error e, s') => (.error e, s')

end Loop

/-! ## What a step leaves -/

def bytes (ticks : List Tick) : Bytes := (ticks.map (·.chunk)).flatten

theorem bytes_append (done : List Tick) (t : Tick) :
    bytes (done ++ [t]) = bytes done ++ t.chunk := by
  simp [bytes]

/-- The chunks in `done` were accepted. `torn` is what a failed write has left. -/
structure Written (cfg : Config) (done : List Tick) (torn : Bytes) (s : Local) : Prop where
  hashed : s.hashed = bytes done
  file : s.file = s.hashed ++ torn
  written : s.written = s.hashed.length
  cap : 0 < cfg.fileMaxBytes → s.file.length ≤ cfg.fileMaxBytes

/-- The stored values, and the column of the row. -/
structure Records (cfg : Config) (s : Local) : Prop where
  apart : s.recorded.Pairwise fun a b => a + progressUpdateEvery ≤ b
  below : ∀ n ∈ s.recorded, n ≤ s.written
  column : ∀ n, s.recorded.getLast? = some n →
    ∀ row, s.table.getById cfg.requestId = some row → row.progressBytes = n

/-- What holds at the head of the loop. -/
structure Sound (cfg : Config) (done : List Tick) (s : Local) : Prop extends
    Written cfg done [] s, Records cfg s where
  since : ∀ n ∈ s.recorded, n ≤ s.lastProgressUpdate
  update : s.lastProgressUpdate ≤ s.written

/-- Why the loop has stopped before `rest`. -/
def Reason (cfg : Config) (rest : List Tick) (torn : Bytes) (s : Local) : Exc → Prop
  | .downloadTooLarge _ => torn = [] ∧
    ∃ t later, rest = t :: later ∧ cfg.fileMaxBytes < s.file.length + t.chunk.length
  | .slowDownload _ => torn = []
  | .midStreamDiskFull _ => torn = []
  | e => torn = [] ∨ ∃ t later f n, rest = t :: later ∧ t.writeFault = some (f, n) ∧ f.1 = e ∧
    torn = t.chunk.take n

structure Stopped (cfg : Config) (ticks : List Tick) (e : Exc) (s : Local) : Prop extends
    Records cfg s where
  accepted : ∃ done rest torn, ticks = done ++ rest ∧ Written cfg done torn s ∧
    Reason cfg rest torn s e

/-- The loop goes on with `done` accepted, or it stops. -/
def Turned (cfg : Config) (done rest : List Tick) : Result Unit → Prop
  | (.ok (), s) => Sound cfg done s
  | (.error e, s) => Stopped cfg (done ++ rest) e s

section Steps

variable {cfg : Config} {done rest : List Tick} {t : Tick} {s : Local} {e : Exc}

/-- The loop stops, and every chunk in the file was accepted. -/
theorem Sound.stopped (h : Sound cfg done s) (hreason : Reason cfg rest [] s e) :
    Stopped cfg (done ++ rest) e s :=
  ⟨h.toRecords, done, rest, [], rfl, h.toWritten, hreason⟩

theorem reason_of_fault (f : Fault)
    (h : torn = [] ∨ ∃ t later g n, rest = t :: later ∧ t.writeFault = some (g, n) ∧ g.1 = f.1 ∧
      torn = t.chunk.take n) : Reason cfg rest torn s f.1 := by
  obtain ⟨e, hown⟩ := f
  cases e <;> first | exact h | exact absurd trivial hown

theorem sound_start (cfg : Config) (table : Table) : Sound cfg [] (start table) where
  hashed := rfl
  file := rfl
  written := rfl
  cap h := by simpa [start] using h.le
  apart := List.Pairwise.nil
  below := nofun
  column := nofun
  since := nofun
  update := Nat.le_refl 0

theorem sound_accept (h : Sound cfg done s)
    (hcap : ¬(cfg.fileMaxBytes ≠ 0 ∧ cfg.fileMaxBytes < s.written + t.chunk.length)) :
    Sound cfg (done ++ [t]) (accept t.chunk s) where
  hashed := by
    rw [bytes_append, ← h.hashed]
    rfl
  file := by
    have hfile := h.file
    simp only [List.append_nil] at hfile ⊢
    rw [accept, hfile]
  written := by simp [accept, h.written]
  cap hpos := by
    have hfile := h.file
    have hwritten := h.written
    simp only [List.append_nil] at hfile
    simp only [accept, List.length_append, hfile]
    omega
  apart := h.apart
  below n hn := Nat.le_add_right_of_le (h.below n hn)
  column := h.column
  since := h.since
  update := Nat.le_add_right_of_le h.update

theorem column_store (now : Nat) (n : Nat) (hn : (store cfg now s).recorded.getLast? = some n)
    (row : LoraFetch) (hrow : (store cfg now s).table.getById cfg.requestId = some row) :
    row.progressBytes = n := by
  have hlast : s.written = n := by simpa [store] using hn
  have hupdate := getById_update
    (f := fun r => { r with progressBytes := s.written, updatedAt := now }) (fun _ => rfl)
    s.table cfg.requestId
  obtain ⟨old, -, rfl⟩ := Option.map_eq_some_iff.mp (hupdate.symm.trans hrow)
  exact hlast

theorem turned_andThen {done' rest' : List Tick} {r : Result Unit} {f : Local → Result Unit}
    (h : Turned cfg done rest r) (heq : done ++ rest = done' ++ rest')
    (hf : ∀ s', Sound cfg done s' → Turned cfg done' rest' (f s')) :
    Turned cfg done' rest' (andThen r f) := by
  obtain ⟨a, s'⟩ := r
  cases a with
  | ok a => exact hf s' h
  | error e =>
    have hstopped : Stopped cfg (done ++ rest) e s' := h
    rw [heq] at hstopped
    exact hstopped

theorem turned_checkThroughput (h : Sound cfg done s) :
    Turned cfg done rest (checkThroughput cfg t s) := by
  unfold checkThroughput
  by_cases hgrace : throughputGraceSeconds < t.elapsed
  · rw [if_pos hgrace]
    dsimp only
    split
    · exact h.stopped rfl
    · exact h
  · rw [if_neg hgrace]
    exact h

theorem Sound.checked (h : Sound cfg done s) (n : Nat) :
    Sound cfg done { s with lastDiskCheck := n } :=
  ⟨⟨h.hashed, h.file, h.written, h.cap⟩, ⟨h.apart, h.below, h.column⟩, h.since, h.update⟩

theorem turned_checkDisk (h : Sound cfg done s) : Turned cfg done rest (checkDisk cfg t s) := by
  unfold checkDisk
  have hchecked := h.checked s.written
  by_cases hdue : diskRecheckEveryBytes ≤ s.written - s.lastDiskCheck
  · rw [if_pos hdue]
    dsimp only
    split
    · exact hchecked.stopped (reason_of_fault _ (.inl rfl))
    · split
      · exact hchecked.stopped rfl
      · exact hchecked
  · rw [if_neg hdue]
    exact h

/-- The stored value is all that was written. -/
theorem records_store (h : Records cfg s)
    (hapart : ∀ n ∈ s.recorded, n + progressUpdateEvery ≤ s.written) (now : Nat) :
    Records cfg (store cfg now s) where
  apart := by
    refine List.pairwise_append.mpr ⟨h.apart, List.pairwise_singleton _ _, ?_⟩
    intro n hn m hm
    rw [List.mem_singleton.mp hm]
    exact hapart n hn
  below n hn := by
    rcases List.mem_append.mp hn with hn | hn
    · exact h.below n hn
    · exact (List.mem_singleton.mp hn).le
  column := column_store now

theorem written_store {torn : Bytes} (h : Written cfg done torn s) (now : Nat) :
    Written cfg done torn (store cfg now s) :=
  ⟨h.hashed, h.file, h.written, h.cap⟩

theorem turned_reportProgress (h : Sound cfg done s) :
    Turned cfg done rest (reportProgress cfg t s) := by
  unfold reportProgress
  by_cases hdue : progressUpdateEvery ≤ s.written - s.lastProgressUpdate
  · rw [if_pos hdue]
    have hapart : ∀ n ∈ s.recorded, n + progressUpdateEvery ≤ s.written := by
      intro n hn
      have hsince := h.since n hn
      have hupdate := h.update
      omega
    have hrecords := records_store h.toRecords hapart t.now
    have hwritten := written_store h.toWritten t.now
    unfold setProgress
    split
    · exact ⟨⟨hwritten.hashed, hwritten.file, hwritten.written, hwritten.cap⟩,
        ⟨hrecords.apart, hrecords.below, hrecords.column⟩, hrecords.below, Nat.le_refl _⟩
    · exact ⟨hrecords, done, rest, [], rfl, hwritten, reason_of_fault _ (.inl rfl)⟩
    · exact h.stopped (reason_of_fault _ (.inl rfl))
  · rw [if_neg hdue]
    exact h

/-- A write that fails has passed the cap. -/
theorem written_torn (h : Sound cfg done s) (chunk : Bytes) (n : Nat)
    (hcap : ¬(cfg.fileMaxBytes ≠ 0 ∧ cfg.fileMaxBytes < s.written + chunk.length)) :
    Written cfg done (chunk.take n) { s with file := s.file ++ chunk.take n } := by
  have hfile : s.file = s.hashed := by simpa using h.file
  refine ⟨h.hashed, by simp [hfile], h.written, fun hpos => ?_⟩
  have hlength := List.length_take_le' n chunk
  have hwritten := h.written
  simp only [List.length_append, hfile]
  omega

theorem turned_iterate (h : Sound cfg done s) (t : Tick) (rest : List Tick) :
    Turned cfg (done ++ [t]) rest (iterate cfg t s) := by
  have hrest : done ++ t :: rest = done ++ [t] ++ rest := by simp
  unfold iterate
  by_cases hempty : t.chunk = []
  · rw [if_pos hempty]
    have hbytes : bytes (done ++ [t]) = bytes done := by simp [bytes_append, hempty]
    exact ⟨⟨h.hashed.trans hbytes.symm, h.file, h.written, h.cap⟩, h.toRecords, h.since, h.update⟩
  rw [if_neg hempty]
  by_cases hcap : cfg.fileMaxBytes ≠ 0 ∧ cfg.fileMaxBytes < s.written + t.chunk.length
  · rw [if_pos hcap]
    have hlength : s.file.length = s.written := by simp [h.file, h.written]
    rw [← hlength] at hcap
    exact ⟨h.toRecords, done, t :: rest, [], hrest.symm, h.toWritten, rfl, t, rest, rfl, hcap.2⟩
  rw [if_neg hcap]
  split
  · rename_i f n hfault
    refine ⟨⟨h.apart, h.below, h.column⟩, done, t :: rest, t.chunk.take n, hrest.symm,
      written_torn h t.chunk n hcap, ?_⟩
    exact reason_of_fault f (.inr ⟨t, rest, f, n, rfl, hfault, rfl, rfl⟩)
  · refine turned_andThen ?_ rfl fun s' h' => turned_reportProgress h'
    refine turned_andThen ?_ rfl fun s' h' => turned_checkDisk h'
    exact turned_checkThroughput (sound_accept h hcap)

theorem turned_loop (h : Sound cfg done s) (ticks : List Tick) :
    Turned cfg (done ++ ticks) [] (loop cfg ticks s) := by
  induction ticks generalizing done s with
  | nil =>
    rw [List.append_nil]
    exact h
  | cons t ticks ih =>
    refine turned_andThen (turned_iterate h t ticks) (by simp) fun s' h' => ?_
    have hrest := ih h'
    rwa [List.append_assoc, List.singleton_append] at hrest

end Steps

/-! ## The table -/

section Rows

variable {cfg : Config} {P : Table → Prop} {s : Local}

theorem table_andThen {r : Result Unit} {f : Local → Result Unit} (hr : P r.2.table)
    (hf : ∀ s', P s'.table → P (f s').2.table) : P (andThen r f).2.table := by
  obtain ⟨a, s'⟩ := r
  cases a with
  | ok a => exact hf s' hr
  | error e => exact hr

theorem table_setProgress
    (hP : ∀ t progress now, P t → P (t.setProgress cfg.requestId progress now))
    (h : P s.table) (now : Nat) (fault : Option (Fault × Bool)) :
    P (setProgress cfg now fault s).2.table := by
  unfold setProgress
  split
  · exact hP _ _ _ h
  · exact hP _ _ _ h
  · exact h

theorem table_iterate (hP : ∀ t progress now, P t → P (t.setProgress cfg.requestId progress now))
    (h : P s.table) (t : Tick) : P (iterate cfg t s).2.table := by
  unfold iterate
  split
  · exact h
  split
  · exact h
  split
  · exact h
  · refine table_andThen (table_andThen ?_ fun s' h' => ?_) fun s' h' => ?_
    · unfold checkThroughput
      dsimp only
      split
      · split <;> exact h
      · exact h
    · unfold checkDisk
      dsimp only
      split
      · split
        · exact h'
        · split <;> exact h'
      · exact h'
    · unfold reportProgress
      split
      · exact table_andThen (table_setProgress hP h' _ _) fun _ h'' => h''
      · exact h'

/-- The download touches the table through `set_progress` only. -/
theorem table_streamDownload
    (hP : ∀ t progress now, P t → P (t.setProgress cfg.requestId progress now))
    {table : Table} (h : P table) (ticks : List Tick) (ending : Ending) :
    P (streamDownload cfg ticks ending table).2.table := by
  have hloop : ∀ ticks s, P s.table → P (loop cfg ticks s).2.table := by
    intro ticks
    induction ticks with
    | nil => exact fun s hs => hs
    | cons t ticks ih => exact fun s hs => table_andThen (table_iterate hP hs t) ih
  have hticks := hloop ticks (start table) h
  unfold streamDownload
  rcases hrun : loop cfg ticks (start table) with ⟨a, s⟩
  rw [hrun] at hticks
  cases a with
  | error e => exact hticks
  | ok a =>
    cases ending with
    | raises e => exact hticks
    | ended now fault =>
      have hlast := table_setProgress hP hticks now fault
      dsimp only
      split <;> rename_i heq <;> rw [heq] at hlast <;> exact hlast

end Rows

/-! ## The whole download -/

/-- The digest is that of the file. -/
theorem digest_eq {cfg : Config} {ticks : List Tick} {ending : Ending} {table : Table}
    {digest : String} (h : (streamDownload cfg ticks ending table).1 = .ok digest) :
    digest = cfg.sha256 (streamDownload cfg ticks ending table).2.file := by
  have hloop := turned_loop (sound_start cfg table) ticks
  unfold streamDownload at *
  rcases hrun : loop cfg ticks (start table) with ⟨_ | _, s⟩ <;> rw [hrun] at h hloop
  · cases h
  have hfile : s.file = s.hashed := by simpa using hloop.file
  cases ending with
  | raises e => cases h
  | ended now fault =>
    rcases fault with _ | ⟨e, _ | _⟩
    · cases h
      simp [setProgress, store, hfile]
    · cases h
    · cases h

/-- What the result says of the chunks that are left. -/
def Finish (cfg : Config) (rest : List Tick) (torn : Bytes) (s : Local) : Except Exc String → Prop
  | .ok digest => rest = [] ∧ torn = [] ∧ digest = cfg.sha256 s.file ∧
    s.recorded.getLast? = some s.file.length
  | .error e => Reason cfg rest torn s e

/-- The loop comes to its end, with every chunk taken. -/
def Through (cfg : Config) (ticks : List Tick) (table : Table) : Prop :=
  (loop cfg ticks (start table)).1 = .ok ()

def Ending.isOver : Ending → Bool
  | .raises _ => false
  | .ended _ _ => true

structure Faithful (cfg : Config) (ticks : List Tick) (ending : Ending) (table : Table)
    (r : Result String) : Prop where
  accepted : ∃ done rest torn, ticks = done ++ rest ∧ Written cfg done torn r.2 ∧
    Finish cfg rest torn r.2 r.1
  /-- The stream may raise after its last chunk. -/
  through : Through cfg ticks table → Written cfg ticks [] r.2
  ordered : r.2.recorded.Pairwise (· ≤ ·)
  below : ∀ n ∈ r.2.recorded, n ≤ r.2.written
  /-- All but the flush, which comes after the loop. -/
  apart : ∃ midStream flushed, r.2.recorded = midStream ++ flushed ∧
    (midStream.Pairwise fun a b => a + progressUpdateEvery ≤ b) ∧
    (flushed = [] ∨ flushed = [r.2.written] ∧ Through cfg ticks table ∧ ending.isOver = true)
  column : ∀ n, r.2.recorded.getLast? = some n →
    ∀ row, r.2.table.getById cfg.requestId = some row → row.progressBytes = n

section Download

variable {cfg : Config} {ticks : List Tick} {ending : Ending} {table : Table} {s : Local}

theorem faithful_of_records {r : Result String} (h : Records cfg r.2)
    (haccepted : ∃ done rest torn, ticks = done ++ rest ∧ Written cfg done torn r.2 ∧
      Finish cfg rest torn r.2 r.1) (hthrough : Through cfg ticks table → Written cfg ticks [] r.2) :
    Faithful cfg ticks ending table r where
  accepted := haccepted
  through := hthrough
  ordered := h.apart.imp fun hle => by omega
  below := h.below
  apart := ⟨r.2.recorded, [], by simp, h.apart, Or.inl rfl⟩
  column := h.column

theorem faithful_store (h : Sound cfg ticks s) (hthrough : Through cfg ticks table) (now : Nat)
    (fault : Option (Fault × Bool)) (a : Except Exc String)
    (hfinish : Finish cfg [] [] (store cfg now s) a) :
    Faithful cfg ticks (.ended now fault) table (a, store cfg now s) where
  accepted := ⟨ticks, [], [], by simp, written_store h.toWritten now, hfinish⟩
  through _ := written_store h.toWritten now
  ordered := by
    have hmid : s.recorded.Pairwise (· ≤ ·) := h.apart.imp fun hle => by omega
    refine List.pairwise_append.mpr ⟨hmid, List.pairwise_singleton _ _, ?_⟩
    intro n hn m hm
    rw [List.mem_singleton.mp hm]
    exact h.below n hn
  below n hn := by
    rcases List.mem_append.mp hn with hn | hn
    · exact h.below n hn
    · exact (List.mem_singleton.mp hn).le
  apart := ⟨s.recorded, [s.written], rfl, h.apart, Or.inr ⟨rfl, hthrough, rfl⟩⟩
  column := column_store now

end Download

/-- For any chunks and readings, wherever the download stops. Each chunk taken is
such a stop, so this holds after every step. -/
theorem the_download_is_faithful (cfg : Config) (ticks : List Tick) (ending : Ending)
    (table : Table) : Faithful cfg ticks ending table (streamDownload cfg ticks ending table) := by
  have hloop := turned_loop (sound_start cfg table) ticks
  unfold streamDownload
  rcases hrun : loop cfg ticks (start table) with ⟨a, s⟩
  rw [hrun] at hloop
  cases a with
  | error e =>
    obtain ⟨hrecords, haccepted⟩ := hloop
    rw [List.append_nil] at haccepted
    refine faithful_of_records hrecords haccepted fun hthrough => ?_
    rw [Through, hrun] at hthrough
    cases hthrough
  | ok a =>
    have hsound : Sound cfg ticks s := hloop
    have hthrough : Through cfg ticks table := by rw [Through, hrun]
    have hstops : ∀ f : Fault, Faithful cfg ticks ending table (.error f.1, s) := fun f =>
      faithful_of_records hsound.toRecords
        ⟨ticks, [], [], by simp, hsound.toWritten, reason_of_fault f (.inl rfl)⟩
        fun _ => hsound.toWritten
    cases ending with
    | raises e => exact hstops e
    | ended now fault =>
      dsimp only
      rcases fault with _ | ⟨e, _ | _⟩
      · refine faithful_store hsound hthrough now none _ ⟨rfl, rfl, ?_, ?_⟩
        · simp [store, hsound.file]
        · simp [store, hsound.file, hsound.written]
      · exact hstops e
      · exact faithful_store hsound hthrough now _ _ (reason_of_fault e (.inl rfl))

end image_gen.stream_download

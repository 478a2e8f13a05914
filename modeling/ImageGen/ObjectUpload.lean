-- The upload of an output (`upload_generation_blob` in `app/storage/s3.py`): up to three puts, what
-- they leave in the object store, and what the worker is told.
import ImageGen.Coroutine
import ImageGen.Storage
import ImageGen.Worker

namespace image_gen.object_upload

open image_gen.coroutine image_gen.storage
open image_gen.requests (Bytes)

inductive Exc
  | storage (message : String)
  /-- `ClientError`, with the code of its response. -/
  | client (code message : String)
  /-- Any other exception, as `EndpointConnectionError`. -/
  | other (kind message : String)
  | cancelled

/-- The exception as the worker sees it. -/
def Exc.escape : Exc → worker.Exc
  | .storage message => .storage message
  | .client _ message => .other "clienterror" message
  | .other kind message => .other kind message
  | .cancelled => .cancelled

def transientS3Codes : List String :=
  ["ServiceUnavailable", "SlowDown", "ThrottlingException", "RequestTimeout",
    "RequestTimeoutException", "InternalError", "OperationAborted"]

def isTransientClientError : Exc → Bool
  | .client code _ => transientS3Codes.contains code
  | _ => false

inductive Op
  | putObject (a : Address) (data : Bytes)
  /-- `wait_exponential_jitter`. -/
  | backoff

@[reducible] def Op.Ans : Op → Type := fun _ => Unit

abbrev Prog (α : Type) := Co Exc Op Op.Ans α

def ask (op : Op) : Prog op.Ans := Co.call op

section Upload

variable (a : Address) (data : Bytes)

/-- `AsyncRetrying`, with `left` attempts after this one. -/
def retrying : Nat → Prog Unit
  | 0 => ask (.putObject a data)
  | left + 1 =>
    tryCatch (ask (.putObject a data)) fun e => do
      if isTransientClientError e then
        ask .backoff
        retrying left
      else throw e

/-- `except ClientError`. -/
def wrap : Exc → Exc
  | .client _ message => .storage ("put_object failed after retries: " ++ message)
  | e => e

/-- The address is that of `object_key_for`, computed once. -/
def uploadGenerationBlob : Prog Address := do
  tryCatch (retrying a data 2) fun e => throw (wrap e)
  return a

end Upload

/-! ## What a put may do -/

structure World where
  objects : Objects
  /-- The answers to the puts. -/
  puts : List (Except Exc Unit)

def World.answered (w : World) (r : Except Exc Unit) : World := { w with puts := w.puts ++ [r] }

def World.stored (w : World) (a : Address) (data : Bytes) : World :=
  { w with objects := putObject w.objects a data }

inductive Acts : (op : Op) → World → Except Exc op.Ans → World → Prop
  | stored (w : World) (a : Address) (data : Bytes) :
      Acts (.putObject a data) w (.ok ()) ((w.stored a data).answered (.ok ()))
  | failed (w : World) (a : Address) (data : Bytes) (e : Exc)
      (h : ∀ message, e ≠ .storage message) :
      Acts (.putObject a data) w (.error e) (w.answered (.error e))
  /-- The answer is lost, or the caller is cancelled: the put runs in a thread of its own. -/
  | storedUnseen (w : World) (a : Address) (data : Bytes) (e : Exc)
      (h : ∀ message, e ≠ .storage message) :
      Acts (.putObject a data) w (.error e) ((w.stored a data).answered (.error e))
  | waited (w : World) : Acts .backoff w (.ok ()) w
  | waitCancelled (w : World) : Acts .backoff w (.error .cancelled) w

/-! ## How an upload ends -/

def Transient (puts : List (Except Exc Unit)) : Prop :=
  ∀ r ∈ puts, ∃ e, r = .error e ∧ isTransientClientError e = true

/-- The store is as it was, or has the output. -/
def Kept (objects : Objects) (a : Address) (data : Bytes) (w : World) : Prop :=
  w.objects = objects ∨ w.objects = putObject objects a data

/-- The puts of an upload, and what it makes of them. -/
inductive Outcome : List (Except Exc Unit) → Except Exc Unit → Prop
  | stored (before : List (Except Exc Unit)) (h : Transient before) (few : before.length ≤ 2) :
      Outcome (before ++ [.ok ()]) (.ok ())
  /-- The last put raised, and there is no other after it. -/
  | raised (before : List (Except Exc Unit)) (e : Exc) (h : Transient before)
      (few : before.length ≤ 2) (hraise : ∀ message, e ≠ .storage message)
      (hlast : isTransientClientError e = true → before.length = 2) :
      Outcome (before ++ [.error e]) (.error e)
  /-- Cancelled in the wait between two puts. -/
  | waiting (puts : List (Except Exc Unit)) (h : Transient puts) (one : 1 ≤ puts.length)
      (few : puts.length ≤ 2) : Outcome puts (.error .cancelled)

section Proofs

variable {a : Address} {data : Bytes} {objects : Objects} {w : World}

theorem transient_nil : Transient [] := by
  intro r hr
  cases hr

theorem Transient.snoc {puts : List (Except Exc Unit)} {e : Exc} (h : Transient puts)
    (he : isTransientClientError e = true) : Transient (puts ++ [.error e]) := by
  intro r hr
  rcases List.mem_append.mp hr with hold | hnew
  · exact h r hold
  · exact ⟨e, List.mem_singleton.mp hnew, he⟩

theorem putObject_putObject (objects : Objects) :
    putObject (putObject objects a data) a data = putObject objects a data :=
  Function.update_idem _ _ _

/-- A put of the upload once more changes nothing. -/
theorem Kept.stored (h : Kept objects a data w) :
    (w.stored a data).objects = putObject objects a data := by
  rcases h with hsame | hstored
  · simp [World.stored, hsame]
  · simp [World.stored, hstored, putObject_putObject]

/-- What one put comes to. -/
theorem acts_putObject {r : Except Exc Unit} {w' : World}
    (hact : Acts (.putObject a data) w r w') (h : Kept objects a data w) :
    Kept objects a data w' ∧ w'.puts = w.puts ++ [r] ∧
      (r = .ok () → w'.objects = putObject objects a data) ∧
      ∀ e, r = .error e → ∀ message, e ≠ .storage message := by
  cases hact with
  | stored =>
    exact ⟨.inr h.stored, rfl, fun _ => h.stored, fun e he => (by cases he)⟩
  | failed _ _ _ e hraise =>
    refine ⟨h, rfl, fun hok => (by cases hok), fun e' he' => ?_⟩
    cases he'
    exact hraise
  | storedUnseen _ _ _ e hraise =>
    refine ⟨.inr h.stored, rfl, fun hok => (by cases hok), fun e' he' => ?_⟩
    cases he'
    exact hraise

/-- What is told when the puts are over. -/
def Told (objects : Objects) (a : Address) (data : Bytes) (r : Except Exc Unit) (w : World) :
    Prop :=
  Kept objects a data w ∧ Outcome w.puts r ∧
    (r = .ok () → w.objects = putObject objects a data)

theorem holds_retrying (left : Nat) (hkept : Kept objects a data w) (hputs : Transient w.puts)
    (hleft : w.puts.length + left = 2) :
    (retrying a data left).Holds Acts (Kept objects a data) (Told objects a data) w := by
  induction left generalizing w with
  | zero =>
    refine Co.holds_call _ _ fun r w' hact => ?_
    obtain ⟨hkept', heq, hstored, hraise⟩ := acts_putObject hact hkept
    refine ⟨hkept', hkept', ?_, hstored⟩
    rw [heq]
    cases r with
    | ok _ => exact .stored w.puts hputs (by omega)
    | error e => exact .raised w.puts e hputs (by omega) (hraise e rfl) fun _ => by omega
  | succ left ih =>
    refine Co.holds_tryCatch (Co.holds_call _ _ fun r w' hact => ?_)
    obtain ⟨hkept', heq, hstored, hraise⟩ := acts_putObject hact hkept
    refine ⟨hkept', ?_⟩
    cases r with
    | ok _ =>
      refine ⟨hkept', ?_, hstored⟩
      rw [heq]
      exact .stored w.puts hputs (by omega)
    | error e =>
      by_cases htransient : isTransientClientError e = true
      · have hputs' : Transient w'.puts := heq ▸ hputs.snoc htransient
        have hlength : w'.puts.length = w.puts.length + 1 := by simp [heq]
        dsimp only
        rw [if_pos htransient]
        refine Co.holds_bind (Co.holds_call _ _ fun r' w'' hact' => ?_)
        cases hact' with
        | waited => exact ⟨hkept', ih hkept' hputs' (by omega)⟩
        | waitCancelled =>
          refine ⟨hkept', hkept', .waiting w'.puts hputs' (by omega) (by omega), ?_⟩
          intro hok
          cases hok
      · dsimp only
        rw [if_neg htransient]
        refine ⟨hkept', ?_, hstored⟩
        rw [heq]
        exact .raised w.puts e hputs (by omega) (hraise e rfl) fun h => absurd h htransient

theorem Outcome.few {puts : List (Except Exc Unit)} {r : Except Exc Unit} (h : Outcome puts r) :
    puts.length ≤ 3 ∧ Transient puts.dropLast := by
  cases h with
  | stored before htransient hfew =>
    rw [List.length_append, List.dropLast_concat]
    exact ⟨by simp; omega, htransient⟩
  | raised before e htransient hfew =>
    rw [List.length_append, List.dropLast_concat]
    exact ⟨by simp; omega, htransient⟩
  | waiting _ htransient hone hfew =>
    exact ⟨by omega, fun r hr => htransient r (List.dropLast_subset _ hr)⟩

/-- The worker takes it for a storage error exactly where the last put raised a `ClientError`
and no attempt was left for it. -/
theorem Outcome.reported {puts : List (Except Exc Unit)} {e : Exc} (h : Outcome puts (.error e)) :
    (wrap e).escape.isBackendOrStorage = true ↔ ∃ code message,
      puts.getLast? = some (.error (.client code message)) ∧
        (code ∈ transientS3Codes → puts.length = 3) := by
  cases h with
  | waiting _ htransient hone hfew =>
    refine iff_of_false (by simp [wrap, Exc.escape, worker.Exc.isBackendOrStorage]) ?_
    rintro ⟨code, message, hlast, hleft⟩
    obtain ⟨e, he, hcode⟩ := htransient _ (List.mem_of_getLast? hlast)
    cases he
    have hthree := hleft (by simpa [isTransientClientError] using hcode)
    omega
  | raised before _ htransient hfew hraise hlast =>
    rw [List.getLast?_concat, List.length_append]
    cases e with
    | storage message => exact absurd rfl (hraise message)
    | client code message =>
      refine iff_of_true rfl ⟨code, message, rfl, fun hcode => ?_⟩
      have htwo := hlast (by simpa [isTransientClientError] using hcode)
      simp [htwo]
    | other kind message =>
      exact iff_of_false (by simp [wrap, Exc.escape, worker.Exc.isBackendOrStorage]) (by simp)
    | cancelled =>
      exact iff_of_false (by simp [wrap, Exc.escape, worker.Exc.isBackendOrStorage]) (by simp)

theorem holds_upload (objects : Objects) :
    (uploadGenerationBlob a data).Holds Acts (Kept objects a data)
      (fun r w => ∃ r₀, Told objects a data r₀ w ∧ r = (r₀.mapError wrap).map fun _ => a)
      ⟨objects, []⟩ := by
  unfold uploadGenerationBlob
  refine Co.holds_bind (Co.holds_tryCatch ((holds_retrying 2 (.inl rfl) transient_nil rfl).mono ?_))
  intro r w htold
  cases r with
  | ok u => exact ⟨.ok u, htold, rfl⟩
  | error e => exact ⟨.error e, htold, rfl⟩

/-- Whatever the object store answers: there are three puts at most, and each but the last raised
a transient code. An upload that returns has stored the output; one that raises has stored it or
changed nothing. The worker takes what it raises for a storage error just where the last put
raised a `ClientError`: where the store is out of reach, the exception goes through as it is. -/
theorem an_upload_is_stored_or_reported {r : Except Exc Address}
    (h : (uploadGenerationBlob a data).EndsIn Acts ⟨objects, []⟩ r w) :
    (w.puts.length ≤ 3 ∧ Transient w.puts.dropLast) ∧
    (w.objects = objects ∨ w.objects = putObject objects a data) ∧
    (∀ b, r = .ok b → b = a ∧ w.objects = putObject objects a data) ∧
    ∀ e, r = .error e → (e.escape.isBackendOrStorage = true ↔ ∃ code message,
      w.puts.getLast? = some (.error (.client code message)) ∧
        (code ∈ transientS3Codes → w.puts.length = 3)) := by
  obtain ⟨r₀, ⟨hkept, houtcome, hstored⟩, heq⟩ := Co.end_of_holds (holds_upload objects) h
  subst heq
  refine ⟨houtcome.few, hkept, fun b hb => ?_, fun e he => ?_⟩
  · cases r₀ with
    | error e => cases hb
    | ok u =>
      cases hb
      exact ⟨rfl, hstored rfl⟩
  · cases r₀ with
    | ok u => cases he
    | error e₀ =>
      cases he
      exact houtcome.reported

end Proofs

/-- The store is busy once. -/
def busyOnce : (op : Op) → World → Except Exc op.Ans × World
  | .putObject a data, w =>
    if w.puts.isEmpty then
      (.error (.client "SlowDown" "busy"), w.answered (.error (.client "SlowDown" "busy")))
    else (.ok (), (w.stored a data).answered (.ok ()))
  | .backoff, w => (.ok (), w)

theorem busyOnce_acts (op : Op) (w : World) : Acts op w (busyOnce op w).1 (busyOnce op w).2 := by
  cases op with
  | backoff => exact .waited w
  | putObject a data =>
    simp only [busyOnce]
    split_ifs
    · exact .failed w a data _ fun message h => by cases h
    · exact .stored w a data

/-- The second put goes through. -/
theorem a_busy_store_gets_the_output : ∃ w : World,
    w.puts.length = 2 ∧ w.objects = putObject (fun _ => none) ("images", "key") [0x89] := by
  have hend := Co.endsIn_run busyOnce_acts (uploadGenerationBlob ("images", "key") [0x89])
    ⟨fun _ => none, []⟩
  exact ⟨_, rfl, ((an_upload_is_stored_or_reported hend).2.2.1 _ rfl).2⟩

end image_gen.object_upload

-- A wait returns only for a reason of its own: the reader got the event of its
-- prompt after the wait was registered, or `/history` reported the prompt as
-- completed. And it opens the socket at most twice.
import ImageGen.Results
import ImageGen.SharedWaits

namespace image_gen.completion_sound

open image_gen.json image_gen.runs image_gen.shared_waits
open image_gen.results (bind_ok)

/-! ## Reasons to return -/

/-- The event says that the prompt has ended: `executing` with a null node. -/
def Finishes (promptId : String) (f : Frame) : Prop :=
  ∃ event data, f = .json (.obj event) ∧ Json.get event "type" = .str "executing" ∧
    Json.get event "data" = .obj data ∧ Json.get data "node" = .null ∧
    Json.get data "prompt_id" = .str promptId

/-- The answer has the prompt completed, with no `status_str` or `success`. -/
def Reports (promptId : String) (a : HistoryAnswer) : Prop :=
  ∃ data entry status, a = .response 200 (some (.obj data)) ∧
    Json.get data promptId = .obj entry ∧ Json.get entry "status" = .obj status ∧
    Json.get status "completed" = .bool true ∧
    (Json.get status "status_str" = .null ∨ Json.get status "status_str" = .str "success")

/-- The reader got the event of the wait's prompt after the wait was registered. -/
def Heard (log : List Event) (w : Wait) : Prop :=
  ∃ f, .received f ∈ log.drop w.since ∧ Finishes w.promptId f

def Reported (log : List Event) (w : Wait) : Prop :=
  ∃ a, .answered w.promptId a ∈ log.drop w.since ∧ Reports w.promptId a

/-- How often wait `i` has opened the socket. -/
def openings (log : List Event) (i : Nat) : Nat :=
  log.countP fun e => match e with
    | .opened j => decide (j = i)
    | _ => false

theorem getKey_ok {j v : Json} {key : String} (h : getKey j key = .ok v) :
    ∃ fields, j = .obj fields ∧ v = Json.get fields key := by
  cases j <;> cases h
  exact ⟨_, rfl, rfl⟩

theorem isStr_iff {s : String} {j : Json} (h : isStr s j = true) : j = .str s := by
  cases j <;> simp [isStr] at h
  rw [h]

theorem isNull_iff {j : Json} (h : isNull j = true) : j = .null := by
  cases j <;> simp [isNull] at h
  rfl

theorem orEmpty_obj (fields : List (String × Json)) : orEmpty (.obj fields) = .obj fields := by
  cases fields <;> rfl

/-- A key of `j or {}` that is there is a key of `j`. -/
theorem getKey_orEmpty {j v : Json} {key : String} (h : getKey (orEmpty j) key = .ok v)
    (hv : v ≠ .null) : ∃ fields, j = .obj fields ∧ v = Json.get fields key := by
  unfold orEmpty at h
  split at h
  · exact getKey_ok h
  · cases h
    exact absurd rfl hv

theorem finishes_of_read {f : Frame} {pid : String} (h : readFrame f = .ok (some pid)) :
    Finishes pid f := by
  cases f with
  | binary => cases h
  | malformed => cases h
  | json event =>
    unfold readFrame readEvent at h
    obtain ⟨type, htype, h⟩ := bind_ok h
    obtain ⟨fields, rfl, rfl⟩ := getKey_ok htype
    split at h
    · rename_i hexecuting
      obtain ⟨data, hdata, h⟩ := bind_ok h
      obtain ⟨node, hnode, h⟩ := bind_ok h
      split at h
      · rename_i hnull
        obtain ⟨promptId, hpromptId, h⟩ := bind_ok h
        split at h <;> cases h
        rename_i hne
        obtain ⟨fields', rfl, hpid⟩ := getKey_orEmpty hpromptId nofun
        rw [orEmpty_obj] at hnode
        cases hnode
        obtain ⟨_, heq, hdata⟩ := getKey_ok hdata
        cases heq
        exact ⟨fields, fields', rfl, isStr_iff hexecuting, hdata.symm, isNull_iff hnull, hpid.symm⟩
      · cases h
    · cases h

theorem completion_true {entry : Option Json} (h : completion entry = .ok (some true)) :
    ∃ fields status, entry = some (.obj fields) ∧ Json.get fields "status" = .obj status ∧
      Json.get status "completed" = .bool true ∧
      (Json.get status "status_str" = .null ∨ Json.get status "status_str" = .str "success") := by
  cases entry with
  | none => cases h
  | some entry =>
    unfold completion at h
    obtain ⟨status, hstatus, h⟩ := bind_ok h
    obtain ⟨fields, rfl, rfl⟩ := getKey_ok hstatus
    obtain ⟨completed, hcompleted, h⟩ := bind_ok h
    split at h
    · obtain ⟨status, hstatus, hdone⟩ := getKey_orEmpty hcompleted nofun
      obtain ⟨statusStr, hstr, h⟩ := bind_ok h
      rw [hstatus, orEmpty_obj] at hstr
      cases hstr
      simp only [pure, Except.pure, Except.ok.injEq, Option.some.injEq, Bool.or_eq_true] at h
      exact ⟨fields, status, rfl, hstatus, hdone.symm, h.imp isNull_iff isStr_iff⟩
    · cases h

theorem pollAgain_pc (cfg : Config) (sh : Shared) (remaining : Nat) (signature : Option String)
    (w : Wait) : (pollAgain cfg sh remaining signature w).pc ≠ .returned := by
  unfold pollAgain
  dsimp only
  split
  · exact nofun
  · split <;> exact nofun

theorem reports_of_polledBody {cfg : Config} {sh : Shared} {remaining : Nat} {body : Json}
    {w w' : Wait} (h : polledBody cfg sh remaining body w = .ok w') (hw : w'.pc = .returned) :
    Reports w.promptId (.response 200 (some body)) := by
  unfold polledBody at h
  obtain ⟨entry, hentry, h⟩ := bind_ok h
  obtain ⟨done, hdone, h⟩ := bind_ok h
  split at h
  · obtain ⟨fields, status, rfl, hstatus, hcompleted, hstr⟩ := completion_true hdone
    obtain ⟨value, hvalue, heq⟩ := bind_ok hentry
    obtain ⟨data, rfl, rfl⟩ := getKey_ok hvalue
    have heq := Except.ok.inj heq
    split at heq
    · exact ⟨data, fields, status, rfl, Option.some.inj heq, hstatus, hcompleted, hstr⟩
    · cases heq
  · cases h
    cases hw
  · obtain ⟨signature, -, h⟩ := bind_ok h
    cases h
    exact absurd hw (pollAgain_pc cfg sh remaining signature w)

/-! ## What holds of one wait -/

/-- The socket openings that are left: one before the first loop, one for the
reconnect. `n` counts those of this wait. -/
def Budget (n : Nat) (w : Wait) : Prop :=
  match w.pc with
  | .signing => n = 0 ∧ w.reconnectsUsed = 0
  | .locking _ => n ≤ w.reconnectsUsed ∧ w.reconnectsUsed ≤ 1
  | .connecting _ => n ≤ w.reconnectsUsed ∧ w.reconnectsUsed ≤ 1
  | .backoff _ _ => n ≤ w.reconnectsUsed ∧ w.reconnectsUsed ≤ 1
  | .waiting _ _ => n ≤ w.reconnectsUsed + 1 ∧ w.reconnectsUsed ≤ 1
  | .checking => n ≤ w.reconnectsUsed + 1 ∧ w.reconnectsUsed ≤ 1
  | _ => n ≤ 2

/-- A future that is done has heard its event, and a wait that has returned has
its reason. -/
structure Fine (log : List Event) (n : Nat) (w : Wait) : Prop where
  since : w.since ≤ log.length
  future : w.future = true → Heard log w
  returned : w.pc = .returned → Heard log w ∨ Reported log w
  budget : Budget n w

section Functions

variable {cfg : Config} {sh : Shared} {log : List Event} {n : Nat} {w : Wait}

theorem Fine.le_two (h : Fine log n w) : n ≤ 2 := by
  have hb := h.budget
  unfold Budget at hb
  split at hb <;> omega

/-- Another place to stand, for the same prompt. -/
theorem Fine.moved {n' : Nat} {w' : Wait} (h : Fine log n w) (hprompt : w'.promptId = w.promptId)
    (hsince : w'.since = w.since) (hfuture : w'.future = w.future)
    (hreturned : w'.pc = .returned → Heard log w ∨ Reported log w) (hb : Budget n' w') :
    Fine log n' w' := by
  have hheard : Heard log w' ↔ Heard log w := by
    unfold Heard
    rw [hprompt, hsince]
  have hreported : Reported log w' ↔ Reported log w := by
    unfold Reported
    rw [hprompt, hsince]
  refine ⟨hsince ▸ h.since, ?_, ?_, hb⟩
  · rw [hfuture, hheard]
    exact h.future
  · rw [hheard, hreported]
    exact hreturned

theorem fine_raised (e : Exc) (h : Fine log n w) : Fine log n (finish (.raised e) w) :=
  h.moved rfl rfl rfl nofun h.le_two

theorem fine_loopHead (h : Fine log n w) {n' : Nat} (hn : n' ≤ w.reconnectsUsed + 1)
    (hu : w.reconnectsUsed ≤ 1) : Fine log n' (loopHead cfg sh w) := by
  have hn2 : n' ≤ 2 := by omega
  unfold loopHead
  split
  · rename_i hfuture
    exact h.moved rfl rfl rfl (fun _ => Or.inl (h.future hfuture)) hn2
  · split
    · exact h.moved rfl rfl rfl nofun hn2
    · exact h.moved rfl rfl rfl nofun ⟨hn, hu⟩

theorem fine_pollHead (h : Fine log n w) : Fine log n (pollHead sh w) := by
  unfold pollHead
  split
  · exact fine_raised _ h
  · exact h.moved rfl rfl rfl nofun h.le_two

theorem fine_startPolling (h : Fine log n w) : Fine log n (startPolling sh w) := by
  unfold startPolling pollHead
  split <;> exact h.moved rfl rfl rfl nofun h.le_two

theorem fine_tryConnect (h : Fine log n w) (hn : n ≤ w.reconnectsUsed)
    (hu : w.reconnectsUsed ≤ 1) (locked : Bool) (left : Nat) :
    Fine log n (tryConnect cfg sh locked left w) := by
  unfold tryConnect ensureWs
  split
  · exact h.moved rfl rfl rfl nofun ⟨hn, hu⟩
  · split
    · exact fine_loopHead h (by omega) hu
    · exact h.moved rfl rfl rfl nofun ⟨hn, hu⟩

/-- The one reconnect. -/
theorem fine_readerDied (h : Fine log n w) (hn : n ≤ w.reconnectsUsed + 1)
    (hu : w.reconnectsUsed ≤ 1) : Fine log n (readerDied sh w) := by
  unfold readerDied
  split
  · exact fine_startPolling h
  · rename_i hfirst
    have hzero : w.reconnectsUsed = 0 := by
      unfold maxReconnects at hfirst
      omega
    refine h.moved rfl rfl rfl nofun ⟨hn, ?_⟩
    change w.reconnectsUsed + 1 ≤ 1
    omega

theorem fine_signed (h : Fine log n w) (hn : n = 0) (hu : w.reconnectsUsed = 0) (locked : Bool)
    (a : HistoryAnswer) : Fine log n (signed cfg sh locked a w) := by
  unfold signed
  split
  · exact h.moved rfl rfl rfl nofun h.le_two
  · rename_i signature _
    have hw : Fine log n { w with lastSignature := signature } :=
      h.moved rfl rfl rfl h.returned h.budget
    have hu : ({ w with lastSignature := signature } : Wait).reconnectsUsed = 0 := hu
    exact fine_tryConnect hw (by omega) (by omega) locked 1

theorem fine_checked (h : Fine log n w) (hn : n ≤ w.reconnectsUsed + 1)
    (hu : w.reconnectsUsed ≤ 1) (a : HistoryAnswer) : Fine log n (checked cfg sh a w) := by
  unfold checked
  split
  · exact fine_raised _ h
  · rename_i current _
    split
    · have hw : Fine log n { w with lastSignature := current, lastProgressAt := sh.now } :=
        h.moved rfl rfl rfl h.returned h.budget
      exact fine_loopHead hw hn hu
    · split
      · exact fine_raised _ h
      · exact fine_loopHead h hn hu

theorem fine_pollAgain (h : Fine log n w) (remaining : Nat) (signature : Option String) :
    Fine log n (pollAgain cfg sh remaining signature w) := by
  unfold pollAgain
  dsimp only
  split
  · exact h.moved rfl rfl rfl nofun h.le_two
  · split
    · exact fine_raised _ h
    · exact h.moved rfl rfl rfl nofun h.le_two

theorem fine_polledBody (h : Fine log n w) {remaining : Nat} {body : Json} {w' : Wait}
    (hbody : polledBody cfg sh remaining body w = .ok w')
    (hanswered : .answered w.promptId (.response 200 (some body)) ∈ log.drop w.since) :
    Fine log n w' := by
  have hreports := reports_of_polledBody hbody
  unfold polledBody at hbody
  obtain ⟨entry, -, hbody⟩ := bind_ok hbody
  obtain ⟨done, -, hbody⟩ := bind_ok hbody
  split at hbody
  · cases hbody
    exact h.moved rfl rfl rfl (fun hpc => Or.inr ⟨_, hanswered, hreports hpc⟩) h.le_two
  · cases hbody
    exact fine_raised _ h
  · obtain ⟨signature, -, hbody⟩ := bind_ok hbody
    cases hbody
    exact fine_pollAgain h remaining signature

theorem fine_polled (h : Fine log n w) (remaining : Nat) {a : HistoryAnswer}
    (hanswered : .answered w.promptId a ∈ log.drop w.since) :
    Fine log n (polled cfg sh remaining a w) := by
  unfold polled
  split
  · exact fine_raised _ h
  · exact fine_raised _ h
  · exact fine_raised _ h
  · split
    · rename_i hbody
      exact fine_polledBody h hbody hanswered
    · exact fine_raised _ h
  · exact h.moved rfl rfl rfl nofun h.le_two

theorem fine_wakeWaiting {w' : Wait} {reader wakeAt : Nat} (h : Fine log n w)
    (hn : n ≤ w.reconnectsUsed + 1) (hu : w.reconnectsUsed ≤ 1)
    (hwake : wakeWaiting cfg sh reader wakeAt w = some w') : Fine log n w' := by
  unfold wakeWaiting at hwake
  split at hwake
  · rename_i hfuture
    cases hwake
    exact h.moved rfl rfl rfl (fun _ => Or.inl (h.future hfuture)) h.le_two
  split at hwake
  · cases hwake
    exact fine_readerDied h hn hu
  split at hwake
  · split at hwake <;> cases hwake
    · exact h.moved rfl rfl rfl nofun ⟨hn, hu⟩
    · exact fine_raised _ h
  · cases hwake

end Functions

/-! ## What holds of all of them -/

theorem openings_append (log es : List Event) (i : Nat) :
    openings (log ++ es) i = openings log i + openings es i := List.countP_append

theorem Fine.grows {log : List Event} {n : Nat} {w : Wait} (h : Fine log n w) (es : List Event) :
    Fine (log ++ es) n w := by
  have hmem : ∀ {e}, e ∈ log.drop w.since → e ∈ (log ++ es).drop w.since := by
    intro e he
    rw [List.drop_append_of_le_length h.since]
    exact List.mem_append_left _ he
  have hheard : Heard log w → Heard (log ++ es) w := fun ⟨f, hf, hfinishes⟩ =>
    ⟨f, hmem hf, hfinishes⟩
  refine ⟨?_, fun hf => hheard (h.future hf), fun hpc => ?_, h.budget⟩
  · rw [List.length_append]
    have hle := h.since
    omega
  · exact (h.returned hpc).imp hheard fun ⟨a, ha, hreports⟩ => ⟨a, hmem ha, hreports⟩

theorem mem_drop_concat {log : List Event} {e : Event} {k : Nat} (h : k ≤ log.length) :
    e ∈ (log ++ [e]).drop k := by
  rw [List.drop_append_of_le_length h]
  exact List.mem_append_right _ (List.mem_singleton.mpr rfl)

structure Inv (s : State) : Prop where
  fine : ∀ i w, s.waits[i]? = some w → Fine s.log (openings s.log i) w
  fresh : ∀ i, s.waits.length ≤ i → openings s.log i = 0

section Steps

variable {cfg : Config} {s s' : State}

/-- A step of one wait that opens no socket. -/
theorem inv_set {i : Nat} {w w' : Wait} (h : Inv s) (hi : s.waits[i]? = some w)
    (hw : Fine s.log (openings s.log i) w → Fine s.log (openings s.log i) w') :
    Inv (s.set i w') := by
  refine ⟨fun j u hj => ?_, fun j hj => h.fresh j (by simpa [State.set] using hj)⟩
  by_cases hij : i = j
  · subst hij
    have hlt : i < s.waits.length := (List.getElem?_eq_some_iff.mp hi).1
    simp only [State.set, List.getElem?_set_self hlt, Option.some.injEq] at hj
    exact hj ▸ hw (h.fine i w hi)
  · simp only [State.set, List.getElem?_set_ne hij] at hj
    exact h.fine j u hj

theorem inv_waitStep {i : Nat} {f : Wait → Option Wait} (h : Inv s)
    (hf : ∀ {log n w w'}, Fine log n w → f w = some w' → Fine log n w')
    (hnext : waitStep s i f = some s') : Inv s' := by
  unfold waitStep at hnext
  simp only [Option.bind_eq_bind, Option.bind_eq_some_iff] at hnext
  obtain ⟨w, hi, w', hw', heq⟩ := hnext
  cases heq
  exact inv_set h hi fun hw => hf hw hw'

theorem inv_log (h : Inv s) {e : Event} (he : ∀ i, openings [e] i = 0) :
    Inv { s with log := s.log ++ [e] } := by
  have hsame : ∀ i, openings (s.log ++ [e]) i = openings s.log i := by
    intro i
    rw [openings_append, he]
    rfl
  refine ⟨fun i w hi => ?_, fun i hi => (hsame i).trans (h.fresh i hi)⟩
  rw [hsame]
  exact (h.fine i w hi).grows [e]

theorem fine_acquire {log : List Event} {n : Nat} {w w' : Wait} (h : Fine log n w)
    (hstep : acquire cfg s w = some w') : Fine log n w' := by
  unfold acquire at hstep
  split at hstep
  · rename_i left hpc
    have hb := h.budget
    unfold Budget at hb
    rw [hpc] at hb
    split at hstep <;> cases hstep
    exact fine_tryConnect h hb.1 hb.2 false left
  · cases hstep

theorem fine_refused {sh : Shared} {log : List Event} {n : Nat} {w w' : Wait} (h : Fine log n w)
    (hstep : refused sh w = some w') : Fine log n w' := by
  unfold refused at hstep
  split at hstep
  · cases hstep
    exact fine_startPolling h
  · rename_i left hpc
    have hb := h.budget
    unfold Budget at hb
    rw [hpc] at hb
    cases hstep
    exact h.moved rfl rfl rfl nofun hb
  · cases hstep

theorem fine_connectRaises {message : String} {log : List Event} {n : Nat} {w w' : Wait}
    (h : Fine log n w) (hstep : connectRaises message w = some w') : Fine log n w' := by
  unfold connectRaises at hstep
  split at hstep <;> cases hstep
  exact fine_raised _ h

theorem fine_wake {log : List Event} {n : Nat} {w w' : Wait} (h : Fine log n w)
    (hstep : wake cfg s w = some w') : Fine log n w' := by
  have hb := h.budget
  unfold Budget at hb
  unfold wake at hstep
  split at hstep
  · rename_i hpc
    rw [hpc] at hb
    exact fine_wakeWaiting h hb.1 hb.2 hstep
  · rename_i left hpc
    rw [hpc] at hb
    split at hstep <;> cases hstep
    exact fine_tryConnect h hb.1 hb.2 s.locked left
  · split at hstep <;> cases hstep
    exact fine_pollHead h
  · cases hstep

theorem fine_cancel {log : List Event} {n : Nat} {w w' : Wait} (h : Fine log n w)
    (hstep : cancel w = some w') : Fine log n w' := by
  unfold cancel at hstep
  split at hstep <;> cases hstep
  · exact h.moved rfl rfl rfl nofun h.le_two
  · exact fine_raised _ h

theorem fine_answer {log : List Event} {n : Nat} {w w' : Wait} {a : HistoryAnswer}
    (h : Fine log n w) (hanswered : .answered w.promptId a ∈ log.drop w.since)
    (hstep : answer cfg s a w = some w') : Fine log n w' := by
  have hb := h.budget
  unfold Budget at hb
  unfold answer at hstep
  split at hstep
  · rename_i hpc
    rw [hpc] at hb
    cases hstep
    exact fine_signed h hb.1 hb.2 s.locked a
  · rename_i hpc
    rw [hpc] at hb
    cases hstep
    exact fine_checked h hb.1 hb.2 a
  · cases hstep
    exact fine_polled h _ hanswered
  · cases hstep

/-- The new wait has opened nothing. -/
theorem inv_call (h : Inv s) (promptId : String) (timeout : Nat) :
    Inv { s with waits := s.waits ++ [call cfg s promptId timeout] } := by
  have hnew : Fine s.log 0 (newWait s promptId timeout) :=
    ⟨Nat.le_refl _, nofun, nofun, rfl, rfl⟩
  have hcall : Fine s.log 0 (call cfg s promptId timeout) := by
    unfold call
    dsimp only
    split
    · exact fine_raised _ hnew
    · split
      · exact hnew
      · exact fine_tryConnect hnew (Nat.zero_le _) (Nat.zero_le _) s.locked 1
  refine ⟨fun i w hi => ?_, fun i hi => h.fresh i ?_⟩
  · rcases Nat.lt_trichotomy i s.waits.length with hlt | rfl | hgt
    · rw [List.getElem?_append_left hlt] at hi
      exact h.fine i w hi
    · rw [List.getElem?_concat_length, Option.some.injEq] at hi
      rw [← hi, h.fresh _ (Nat.le_refl _)]
      exact hcall
    · rw [List.getElem?_eq_none (by simp; omega)] at hi
      cases hi
  · simp only [List.length_append, List.length_singleton] at hi
    omega

/-- A frame resolves the futures of its own prompt only. -/
theorem fine_resolve {log : List Event} {n : Nat} {w : Wait} {f : Frame} {pid : String}
    (h : Fine log n w) (hread : readFrame f = .ok (some pid))
    (hreceived : .received f ∈ log.drop w.since) : Fine log n (resolve pid w) := by
  unfold resolve
  split
  · rename_i hown
    have hheard : Heard log w := ⟨f, hreceived, hown.2 ▸ finishes_of_read hread⟩
    exact ⟨h.since, fun _ => hheard, h.returned, h.budget⟩
  · exact h

theorem inv_receive {f : Frame} (h : Inv s) (hnext : next cfg s (.receive f) = some s') :
    Inv s' := by
  have hlog := inv_log h (e := .received f) fun i => rfl
  simp only [next] at hnext
  split at hnext
  · split at hnext <;> cases hnext
    · exact hlog
    · rename_i pid hread
      refine ⟨fun i w hi => ?_, fun i hi => hlog.fresh i (by simpa using hi)⟩
      rw [List.getElem?_map, Option.map_eq_some_iff] at hi
      obtain ⟨u, hu, rfl⟩ := hi
      exact fine_resolve (hlog.fine i u hu) hread (mem_drop_concat (h.fine i u hu).since)
    · exact ⟨hlog.fine, hlog.fresh⟩
  · cases hnext

theorem inv_connected {i : Nat} (h : Inv s) (hnext : next cfg s (.connected i) = some s') :
    Inv s' := by
  simp only [next, Option.bind_eq_bind, Option.bind_eq_some_iff] at hnext
  obtain ⟨w, hi, hnext⟩ := hnext
  split at hnext
  · rename_i left hpc
    cases hnext
    have hopened : ∀ j, openings (s.log ++ [.opened i]) j =
        openings s.log j + if i = j then 1 else 0 := by
      intro j
      rw [openings_append]
      by_cases hij : i = j <;> simp [openings, hij]
    refine ⟨fun j u hj => ?_, fun j hj => ?_⟩
    · rw [hopened]
      by_cases hij : i = j
      · subst hij
        have hlt : i < s.waits.length := (List.getElem?_eq_some_iff.mp hi).1
        simp only [List.getElem?_set_self hlt, Option.some.injEq] at hj
        have hfine := h.fine i w hi
        have hb := hfine.budget
        unfold Budget at hb
        rw [hpc] at hb
        rw [← hj, if_pos rfl]
        exact fine_loopHead (hfine.grows _) (by omega) hb.2
      · simp only [List.getElem?_set_ne hij] at hj
        rw [if_neg hij]
        exact (h.fine j u hj).grows _
    · have hlt : i < s.waits.length := (List.getElem?_eq_some_iff.mp hi).1
      simp only [List.length_set] at hj
      have hij : i ≠ j := by omega
      rw [hopened, if_neg hij, h.fresh j hj]
  · cases hnext

theorem inv_next {l : Label} (h : Inv s) (hnext : next cfg s l = some s') : Inv s' := by
  cases l with
  | delay dt =>
    cases hnext
    exact ⟨h.fine, h.fresh⟩
  | call promptId timeout =>
    cases hnext
    exact inv_call h promptId timeout
  | answer i a =>
    simp only [next, Option.bind_eq_bind, Option.bind_eq_some_iff] at hnext
    obtain ⟨w, hi, w', hw', heq⟩ := hnext
    cases heq
    have hlog := inv_log h (e := .answered w.promptId a) fun j => rfl
    have hanswered := mem_drop_concat (e := .answered w.promptId a) (h.fine i w hi).since
    exact inv_set hlog hi fun hw => fine_answer hw hanswered hw'
  | acquire i => exact inv_waitStep h fine_acquire hnext
  | connected i => exact inv_connected h hnext
  | refused i => exact inv_waitStep h fine_refused hnext
  | connectRaises i message => exact inv_waitStep h fine_connectRaises hnext
  | wake i => exact inv_waitStep h fine_wake hnext
  | cancel i => exact inv_waitStep h fine_cancel hnext
  | receive f => exact inv_receive h hnext
  | lose =>
    simp only [next, Option.ite_none_right_eq_some, Option.some.injEq] at hnext
    obtain ⟨-, rfl⟩ := hnext
    exact ⟨h.fine, h.fresh⟩

/-- A frame that does not finish the prompt of a wait leaves the wait as it is. -/
theorem receive_other {f : Frame} (hnext : next cfg s (.receive f) = some s') {i : Nat} {w : Wait}
    (hi : s.waits[i]? = some w) (hother : ¬ Finishes w.promptId f) : s'.waits[i]? = some w := by
  simp only [next] at hnext
  split at hnext
  · split at hnext <;> cases hnext
    · exact hi
    · rename_i pid hread
      have hne : ¬ (w.registered = true ∧ w.promptId = pid) := by
        rintro ⟨-, rfl⟩
        exact hother (finishes_of_read hread)
      simp [hi, resolve, hne]
    · exact hi
  · cases hnext

end Steps

theorem inv_fresh : Inv shared_waits.fresh := by
  refine ⟨fun i w hi => ?_, fun i _ => rfl⟩
  simp [shared_waits.fresh] at hi

/-- Whatever the frames, the losses and the answers are, a wait returns only
after the event of its own prompt, or a report of it, that came after the wait
was registered. A frame that is not that event leaves the wait as it is. It
opens the socket at most twice, and never from the poll loop on. -/
theorem a_wait_returns_for_its_prompt (cfg : Config) (labels : List Label) (s : State)
    (hrun : exec (next cfg) shared_waits.fresh labels = some s) :
    ∀ i w, s.waits[i]? = some w →
      (w.pc = .returned → Heard s.log w ∨ Reported s.log w) ∧
      (w.future = true → Heard s.log w) ∧
      (∀ f s', next cfg s (.receive f) = some s' → ¬ Finishes w.promptId f →
        s'.waits[i]? = some w) ∧
      openings s.log i ≤ 2 := by
  have hinv : Inv s := invariant_of_next (fun _ _ _ => inv_next) inv_fresh hrun
  intro i w hi
  have hfine := hinv.fine i w hi
  exact ⟨hfine.returned, hfine.future, fun f s' hnext => receive_other hnext hi, hfine.le_two⟩

def smallConfig : Config := ⟨1000, 2000, none, fun _ => ""⟩

def finished (promptId : String) : Frame :=
  .json (.obj [("type", .str "executing"),
    ("data", .obj [("node", .null), ("prompt_id", .str promptId)])])

/-- Two waits on one socket, and the event of the second. -/
def twoWaits : List Label :=
  [.call "p" 9000, .connected 0, .call "q" 9000, .receive .binary, .receive (finished "q"), .wake 1]

theorem a_wait_returns_for_its_prompt_two : ∃ s p q,
    exec (next smallConfig) shared_waits.fresh twoWaits = some s ∧
      s.waits[0]? = some p ∧ p.pc = .waiting 1 9000 ∧ s.waits[1]? = some q ∧ q.pc = .returned ∧
      (Heard s.log q ∨ Reported s.log q) := by
  have hpcs : (exec (next smallConfig) shared_waits.fresh twoWaits).map
      (fun s => s.waits.map (·.pc)) = some [.waiting 1 9000, .returned] := by
    decide +kernel
  obtain ⟨s, hs, hpcs⟩ := Option.map_eq_some_iff.mp hpcs
  obtain ⟨p, rest, hwaits, hp, hrest⟩ := List.map_eq_cons_iff.mp hpcs
  obtain ⟨q, rest', rfl, hq, -⟩ := List.map_eq_cons_iff.mp hrest
  have h0 : s.waits[0]? = some p := by simp [hwaits]
  have h1 : s.waits[1]? = some q := by simp [hwaits]
  exact ⟨s, p, q, hs, h0, hp, h1, hq,
    (a_wait_returns_for_its_prompt smallConfig twoWaits s hs 1 q h1).1 hq⟩

end image_gen.completion_sound

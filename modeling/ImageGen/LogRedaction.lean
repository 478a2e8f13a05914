-- Redaction of log records (`app/logging_config.py`): what the walk over the containers
-- of an event drops and replaces, and what two events that differ there alone show.
import ImageGen.LogScrub
import ImageGen.PyDict

namespace image_gen.log_redaction

open image_gen.py_str image_gen.py_dict
open image_gen.log_scrub (Words scrubString)

/-! ## Values -/

/-- A key of a dictionary. Beside the texts there are numbers and other hashable values. -/
inductive Key (κ : Type)
  | str (s : String)
  | other (k : κ)
  deriving DecidableEq

/-- Texts and other scalars, in containers. A dictionary is in the order of insertion. -/
inductive Value (σ κ : Type)
  | str (s : List Char)
  | scalar (x : σ)
  | list (items : List (Value σ κ))
  | tuple (items : List (Value σ κ))
  | dict (fields : List (Key κ × Value σ κ))

def dropKeys : List String :=
  ["Authorization", "authorization", "presigned_url", "presigned_urls", "X-Amz-Signature",
    "x-amz-signature", "webhook_signing_secret", "api_key", "api_keys"]

def redactableKeys : List String := ["prompt", "negative_prompt"]

section Walk

variable {σ κ : Type} [DecidableEq κ]

def isDropKey (k : Key κ) : Bool := dropKeys.any fun s => k = .str s

def isRedactableKey (k : Key κ) : Bool := redactableKeys.any fun s => k = .str s

mutual

/-- `_walk_and_redact`. -/
def walkAndRedact (reveal : Bool) : Value σ κ → Value σ κ
  | .dict fields => .dict (walkFields reveal fields)
  | .list items => .list (walkItems reveal items)
  | .tuple items => .tuple items
  | .str s => .str s
  | .scalar x => .scalar x

def walkItems (reveal : Bool) : List (Value σ κ) → List (Value σ κ)
  | [] => []
  | item :: rest => walkAndRedact reveal item :: walkItems reveal rest

def walkFields (reveal : Bool) : List (Key κ × Value σ κ) → List (Key κ × Value σ κ)
  | [] => []
  | (k, v) :: rest =>
    if isDropKey k then walkFields reveal rest
    else if isRedactableKey k && !reveal then
      (k, .str "<redacted>".toList) :: walkFields reveal rest
    else (k, walkAndRedact reveal v) :: walkFields reveal rest

end

/-- One of the two fields whose text is scrubbed. -/
def scrubField (words : Words) (field : String) (d : List (Key κ × Value σ κ)) :
    List (Key κ × Value σ κ) :=
  match d.lookup (.str field) with
  | some (.str s) => set d (.str field) (.str (scrubString words s))
  | _ => d

variable (words : Words) (str : PyStr) (logPrompts : Bool) (methodName : List Char)

def revealPrompts : Bool := logPrompts && decide (str.lower methodName = "debug".toList)

def redactSensitive (event : List (Key κ × Value σ κ)) : List (Key κ × Value σ κ) :=
  scrubField words "exception"
    (scrubField words "event" (walkFields (revealPrompts str logPrompts methodName) event))

end Walk

/-! ## Events that differ in secrets alone -/

section Relations

variable {σ κ : Type} [DecidableEq κ]

/-- Equal as Python compares, except for what stands under hidden keys. -/
inductive Agree (hidden : Key κ → Prop) : Value σ κ → Value σ κ → Prop
  | str (s : List Char) : Agree hidden (.str s) (.str s)
  | scalar (x : σ) : Agree hidden (.scalar x) (.scalar x)
  | list {as bs : List (Value σ κ)} (hlen : as.length = bs.length)
      (h : ∀ (i : ℕ) (a b : Value σ κ), as[i]? = some a → bs[i]? = some b → Agree hidden a b) :
      Agree hidden (.list as) (.list bs)
  | tuple {as bs : List (Value σ κ)} (hlen : as.length = bs.length)
      (h : ∀ (i : ℕ) (a b : Value σ κ), as[i]? = some a → bs[i]? = some b → Agree hidden a b) :
      Agree hidden (.tuple as) (.tuple bs)
  | dict {as bs : List (Key κ × Value σ κ)}
      (hkeys : ∀ k, (as.lookup k).isSome = (bs.lookup k).isSome)
      (h : ∀ (k : Key κ) (a b : Value σ κ), as.lookup k = some a → bs.lookup k = some b →
        ¬ hidden k → Agree hidden a b) :
      Agree hidden (.dict as) (.dict bs)

def Same : Value σ κ → Value σ κ → Prop := Agree fun _ => False

/-- Equal except for what stands under hidden keys, and there without a tuple around them. -/
inductive Covered (hidden : Key κ → Prop) : Value σ κ → Value σ κ → Prop
  | str (s : List Char) : Covered hidden (.str s) (.str s)
  | scalar (x : σ) : Covered hidden (.scalar x) (.scalar x)
  | list {as bs : List (Value σ κ)} (hlen : as.length = bs.length)
      (h : ∀ (i : ℕ) (a b : Value σ κ), as[i]? = some a → bs[i]? = some b → Covered hidden a b) :
      Covered hidden (.list as) (.list bs)
  | tuple {as bs : List (Value σ κ)} (h : Same (.tuple as) (.tuple bs)) :
      Covered hidden (.tuple as) (.tuple bs)
  | dict {as bs : List (Key κ × Value σ κ)}
      (hkeys : ∀ k, (as.lookup k).isSome = (bs.lookup k).isSome)
      (h : ∀ (k : Key κ) (a b : Value σ κ), as.lookup k = some a → bs.lookup k = some b →
        ¬ hidden k → Covered hidden a b) :
      Covered hidden (.dict as) (.dict bs)

theorem Agree.mono {hidden more : Key κ → Prop} (hsub : ∀ k, hidden k → more k) {a b : Value σ κ}
    (h : Agree hidden a b) : Agree more a b := by
  induction h with
  | str s => exact .str s
  | scalar x => exact .scalar x
  | list hlen _ ih => exact .list hlen ih
  | tuple hlen _ ih => exact .tuple hlen ih
  | dict hkeys _ ih =>
    refine .dict hkeys fun k a b ha hb hk => ih k a b ha hb fun hidden => hk (hsub k hidden)

theorem same_list_iff {as bs : List (Value σ κ)} :
    Same (.list as) (.list bs) ↔ as.length = bs.length ∧
      ∀ (i : ℕ) (a b : Value σ κ), as[i]? = some a → bs[i]? = some b → Same a b := by
  constructor
  · rintro (_ | _ | ⟨hlen, h⟩)
    exact ⟨hlen, h⟩
  · rintro ⟨hlen, h⟩
    exact .list hlen h

theorem same_dict_iff {as bs : List (Key κ × Value σ κ)} :
    Same (.dict as) (.dict bs) ↔ (∀ k, (as.lookup k).isSome = (bs.lookup k).isSome) ∧
      ∀ (k : Key κ) (a b : Value σ κ), as.lookup k = some a → bs.lookup k = some b →
        Same a b := by
  constructor
  · rintro (_ | _ | _ | _ | ⟨hkeys, h⟩)
    exact ⟨hkeys, fun k a b ha hb => h k a b ha hb not_false⟩
  · rintro ⟨hkeys, h⟩
    exact .dict hkeys fun k a b ha hb _ => h k a b ha hb

theorem covered_list_iff {hidden : Key κ → Prop} {as bs : List (Value σ κ)} :
    Covered hidden (.list as) (.list bs) ↔ as.length = bs.length ∧
      ∀ (i : ℕ) (a b : Value σ κ), as[i]? = some a → bs[i]? = some b → Covered hidden a b := by
  constructor
  · rintro (_ | _ | ⟨hlen, h⟩)
    exact ⟨hlen, h⟩
  · rintro ⟨hlen, h⟩
    exact .list hlen h

theorem covered_dict_iff {hidden : Key κ → Prop} {as bs : List (Key κ × Value σ κ)} :
    Covered hidden (.dict as) (.dict bs) ↔ (∀ k, (as.lookup k).isSome = (bs.lookup k).isSome) ∧
      ∀ (k : Key κ) (a b : Value σ κ), as.lookup k = some a → bs.lookup k = some b →
        ¬ hidden k → Covered hidden a b := by
  constructor
  · rintro (_ | _ | _ | _ | ⟨hkeys, h⟩)
    exact ⟨hkeys, h⟩
  · rintro ⟨hkeys, h⟩
    exact .dict hkeys h

end Relations

/-! ## The walk -/

section WalkLemmas

variable {σ κ : Type} [DecidableEq κ] (reveal : Bool)

/-- What the walk hides: the dropped keys, and the prompts where they are not revealed. -/
def Hides (k : Key κ) : Prop := isDropKey k = true ∨ reveal = false ∧ isRedactableKey k = true

theorem walkItems_eq_map (items : List (Value σ κ)) :
    walkItems reveal items = items.map (walkAndRedact reveal) := by
  induction items with
  | nil => simp [walkItems]
  | cons item rest ih => simp [walkItems, ih]

/-- What the walk makes of one entry. -/
def entryOf (k : Key κ) (v : Value σ κ) : Value σ κ :=
  if isRedactableKey k && !reveal then .str "<redacted>".toList else walkAndRedact reveal v

theorem lookup_walkFields (fields : List (Key κ × Value σ κ)) (k : Key κ) :
    (walkFields reveal fields).lookup k =
      if isDropKey k then none else (fields.lookup k).map (entryOf reveal k) := by
  induction fields with
  | nil => simp [walkFields]
  | cons e rest ih =>
    obtain ⟨key, v⟩ := e
    have hstep : walkFields reveal ((key, v) :: rest) =
        if isDropKey key then walkFields reveal rest
        else (key, entryOf reveal key v) :: walkFields reveal rest := by
      simp only [walkFields, entryOf]
      split_ifs <;> rfl
    rw [hstep]
    by_cases hk : k = key
    · subst hk
      by_cases hdrop : isDropKey k = true
      · simp only [hdrop, if_true] at ih ⊢
        exact ih
      · simp [hdrop]
    · by_cases hdrop : isDropKey key = true
      · simp only [hdrop, if_true]
        rw [ih, lookup_cons_ne v rest hk]
      · simp only [hdrop]
        rw [if_neg (by simp), lookup_cons_ne _ _ hk, ih, lookup_cons_ne v rest hk]

/-- An entry under a hidden key is left out or replaced, every other one is walked. -/
theorem lookup_walked {fields : List (Key κ × Value σ κ)} {k : Key κ} (h : ¬ Hides reveal k) :
    (walkFields reveal fields).lookup k = (fields.lookup k).map (walkAndRedact reveal) := by
  have hdrop : isDropKey k = false := by
    by_contra hne
    exact h (.inl (by simpa using hne))
  have hentry : entryOf reveal k = (walkAndRedact reveal : Value σ κ → Value σ κ) := by
    funext v
    unfold entryOf
    rw [if_neg]
    intro hboth
    simp only [Bool.and_eq_true, Bool.not_eq_true'] at hboth
    exact h (.inr ⟨hboth.2, hboth.1⟩)
  rw [lookup_walkFields, hdrop, hentry]
  simp

theorem lookup_hidden (fields : List (Key κ × Value σ κ)) {k : Key κ} (h : Hides reveal k) :
    (walkFields reveal fields).lookup k = none ∨
      (walkFields reveal fields).lookup k =
        (fields.lookup k).map fun _ => .str "<redacted>".toList := by
  rw [lookup_walkFields]
  by_cases hdrop : isDropKey k = true
  · exact .inl (by simp [hdrop])
  · obtain ⟨hreveal, hredact⟩ := h.resolve_left hdrop
    refine .inr ?_
    rw [if_neg hdrop]
    congr 1
    funext v
    simp [entryOf, hreveal, hredact]

theorem isSome_walked {as bs : List (Key κ × Value σ κ)}
    (hkeys : ∀ k, (as.lookup k).isSome = (bs.lookup k).isSome) (k : Key κ) :
    ((walkFields reveal as).lookup k).isSome = ((walkFields reveal bs).lookup k).isSome := by
  rw [lookup_walkFields, lookup_walkFields]
  split_ifs
  · rfl
  · rw [Option.isSome_map, Option.isSome_map, hkeys]

/-- Entries under a hidden key are the same in both, whatever stood there. -/
theorem same_hidden {as bs : List (Key κ × Value σ κ)} {k : Key κ} (hk : Hides reveal k)
    {a b : Value σ κ} (ha : (walkFields reveal as).lookup k = some a)
    (hb : (walkFields reveal bs).lookup k = some b) :
    a = .str "<redacted>".toList ∧ b = .str "<redacted>".toList := by
  have hconst : ∀ {fields : List (Key κ × Value σ κ)} {v : Value σ κ},
      (walkFields reveal fields).lookup k = some v → v = .str "<redacted>".toList := by
    intro fields v hv
    rcases lookup_hidden reveal fields hk with h | h <;> rw [h] at hv
    · cases hv
    · obtain ⟨-, -, hv⟩ := Option.map_eq_some_iff.mp hv
      exact hv.symm
  exact ⟨hconst ha, hconst hb⟩

/-- For values that agree, the walk leaves no difference exactly where they are covered: a
tuple is not walked. -/
theorem same_walk_iff {a b : Value σ κ} (h : Agree (Hides reveal) a b) :
    Same (walkAndRedact reveal a) (walkAndRedact reveal b) ↔ Covered (Hides reveal) a b := by
  induction h with
  | str s =>
    simp only [walkAndRedact]
    exact ⟨fun _ => .str s, fun _ => .str s⟩
  | scalar x =>
    simp only [walkAndRedact]
    exact ⟨fun _ => .scalar x, fun _ => .scalar x⟩
  | tuple hlen _ _ =>
    simp only [walkAndRedact]
    constructor
    · exact .tuple
    · rintro (_ | _ | _ | h)
      exact h
  | @list as bs hlen _ ih =>
    simp only [walkAndRedact, walkItems_eq_map]
    rw [same_list_iff, covered_list_iff, List.length_map, List.length_map]
    refine and_congr_right fun _ => ?_
    constructor
    · intro hs i a b ha hb
      rw [← ih i a b ha hb]
      exact hs i _ _ (by rw [List.getElem?_map, ha]; rfl) (by rw [List.getElem?_map, hb]; rfl)
    · intro hc i a' b' ha' hb'
      rw [List.getElem?_map] at ha' hb'
      obtain ⟨a, ha, rfl⟩ := Option.map_eq_some_iff.mp ha'
      obtain ⟨b, hb, rfl⟩ := Option.map_eq_some_iff.mp hb'
      exact (ih i a b ha hb).mpr (hc i a b ha hb)
  | @dict as bs hkeys _ ih =>
    simp only [walkAndRedact]
    rw [same_dict_iff, covered_dict_iff]
    refine and_congr ⟨fun _ => hkeys, fun _ => isSome_walked reveal hkeys⟩ ?_
    constructor
    · intro hs k a b ha hb hk
      rw [← ih k a b ha hb hk]
      refine hs k _ _ ?_ ?_
      · rw [lookup_walked reveal hk, ha]
        rfl
      · rw [lookup_walked reveal hk, hb]
        rfl
    · intro hc k a' b' ha' hb'
      by_cases hk : Hides reveal k
      · obtain ⟨rfl, rfl⟩ := same_hidden reveal hk ha' hb'
        exact .str _
      · rw [lookup_walked reveal hk] at ha' hb'
        obtain ⟨a, ha, rfl⟩ := Option.map_eq_some_iff.mp ha'
        obtain ⟨b, hb, rfl⟩ := Option.map_eq_some_iff.mp hb'
        exact (ih k a b ha hb hk).mpr (hc k a b ha hb hk)

end WalkLemmas

/-! ## The scrubbed fields -/

section Scrubbed

variable {σ κ : Type} [DecidableEq κ] (words : Words)

/-- What the scrubbing makes of the value of a field. -/
def scrubValue : Value σ κ → Value σ κ
  | .str s => .str (scrubString words s)
  | v => v

theorem lookup_scrubField (field : String) (d : List (Key κ × Value σ κ)) (k : Key κ) :
    (scrubField words field d).lookup k =
      (d.lookup k).map (if k = .str field then scrubValue words else id) := by
  unfold scrubField
  by_cases hk : k = .str field
  · subst hk
    rw [if_pos rfl]
    rcases h : d.lookup (.str field) with _ | v
    · simp [h]
    · cases v <;> simp [h, lookup_set_self, scrubValue]
  · rw [if_neg hk, Option.map_id]
    split
    · exact lookup_set_ne d _ hk
    · rfl

/-- The value of an entry after both. -/
def scrubbed (k : Key κ) (v : Value σ κ) : Value σ κ :=
  if k = .str "event" ∨ k = .str "exception" then scrubValue words v else v

variable (str : PyStr) (logPrompts : Bool) (methodName : List Char)

theorem lookup_redactSensitive (event : List (Key κ × Value σ κ)) (k : Key κ) :
    (redactSensitive words str logPrompts methodName event).lookup k =
      ((walkFields (revealPrompts str logPrompts methodName) event).lookup k).map
        (scrubbed words k) := by
  have hfn : ((if k = .str "exception" then scrubValue words else id) ∘
      if k = .str "event" then scrubValue words else id) =
        (scrubbed words k : Value σ κ → Value σ κ) := by
    funext v
    unfold scrubbed
    by_cases h1 : k = .str "event"
    · subst h1
      simp
    · by_cases h2 : k = .str "exception" <;> simp [h1, h2]
  rw [redactSensitive, lookup_scrubField, lookup_scrubField, Option.map_map, hfn]

/-- A text is the same in both events, and nothing else is scrubbed. -/
theorem same_scrubbed_iff {hidden : Key κ → Prop} {reveal : Bool} {a b : Value σ κ}
    (h : Agree hidden a b) (k : Key κ) :
    Same (scrubbed words k (walkAndRedact reveal a)) (scrubbed words k (walkAndRedact reveal b)) ↔
      Same (walkAndRedact reveal a) (walkAndRedact reveal b) := by
  unfold scrubbed
  split_ifs
  · cases h <;> simp only [walkAndRedact, scrubValue]
    exact ⟨fun _ => .str _, fun _ => .str _⟩
  · rfl

theorem same_redacted_iff {as bs : List (Key κ × Value σ κ)}
    (h : Agree (Hides (revealPrompts str logPrompts methodName)) (.dict as) (.dict bs)) :
    Same (.dict (redactSensitive words str logPrompts methodName as))
        (.dict (redactSensitive words str logPrompts methodName bs)) ↔
      Covered (Hides (revealPrompts str logPrompts methodName)) (.dict as) (.dict bs) := by
  rw [← same_walk_iff _ h]
  rcases h with _ | _ | _ | _ | ⟨hkeys, hagree⟩
  simp only [walkAndRedact]
  rw [same_dict_iff, same_dict_iff]
  simp only [lookup_redactSensitive, Option.isSome_map]
  refine and_congr_right fun _ => ?_
  constructor
  · intro hs k a' b' ha' hb'
    have hscrubbed := hs k _ _ (congrArg (Option.map _) ha') (congrArg (Option.map _) hb')
    by_cases hk : Hides (revealPrompts str logPrompts methodName) k
    · obtain ⟨rfl, rfl⟩ := same_hidden _ hk ha' hb'
      exact .str _
    · rw [lookup_walked _ hk] at ha' hb'
      obtain ⟨a, ha, rfl⟩ := Option.map_eq_some_iff.mp ha'
      obtain ⟨b, hb, rfl⟩ := Option.map_eq_some_iff.mp hb'
      exact (same_scrubbed_iff words (hagree k a b ha hb hk) k).mp hscrubbed
  · intro hs k a'' b'' ha'' hb''
    obtain ⟨a', ha', rfl⟩ := Option.map_eq_some_iff.mp ha''
    obtain ⟨b', hb', rfl⟩ := Option.map_eq_some_iff.mp hb''
    have hsame := hs k a' b' ha' hb'
    by_cases hk : Hides (revealPrompts str logPrompts methodName) k
    · obtain ⟨rfl, rfl⟩ := same_hidden _ hk ha' hb'
      unfold scrubbed
      split_ifs <;> exact .str _
    · rw [lookup_walked _ hk] at ha' hb'
      obtain ⟨a, ha, rfl⟩ := Option.map_eq_some_iff.mp ha'
      obtain ⟨b, hb, rfl⟩ := Option.map_eq_some_iff.mp hb'
      exact (same_scrubbed_iff words (hagree k a b ha hb hk) k).mpr hsame

/-! ## Noninterference -/

/-- Two events that differ in secrets alone are logged alike: in prompts too, unless they
are revealed, and in what is dropped always. -/
structure Noninterferes (as bs : List (Key κ × Value σ κ)) : Prop where
  prompts : ¬ (logPrompts = true ∧ str.lower methodName = "debug".toList) →
    Agree (fun k => isDropKey k = true ∨ isRedactableKey k = true) (.dict as) (.dict bs) →
      Same (.dict (redactSensitive words str logPrompts methodName as))
        (.dict (redactSensitive words str logPrompts methodName bs))
  drops : Agree (fun k => isDropKey k = true) (.dict as) (.dict bs) →
    Same (.dict (redactSensitive words str logPrompts methodName as))
      (.dict (redactSensitive words str logPrompts methodName bs))

/-- Exactly the secrets inside of tuples are logged. -/
theorem noninterferes_iff (as bs : List (Key κ × Value σ κ)) :
    Noninterferes words str logPrompts methodName as bs ↔
      (Agree (Hides (revealPrompts str logPrompts methodName)) (.dict as) (.dict bs) →
        Covered (Hides (revealPrompts str logPrompts methodName)) (.dict as) (.dict bs)) := by
  have hreveal : revealPrompts str logPrompts methodName = true ↔
      logPrompts = true ∧ str.lower methodName = "debug".toList := by
    simp [revealPrompts]
  constructor
  · intro h hagree
    rw [← same_redacted_iff words _ _ _ hagree]
    by_cases hr : revealPrompts str logPrompts methodName = true
    · refine h.drops (hagree.mono fun k hk => ?_)
      rcases hk with hk | ⟨hfalse, -⟩
      · exact hk
      · rw [hr] at hfalse
        cases hfalse
    · refine h.prompts (fun hboth => hr (hreveal.mpr hboth)) (hagree.mono fun k hk => ?_)
      exact hk.imp_right And.right
  · intro h
    constructor
    · intro hr hagree
      have hhides : Agree (Hides (revealPrompts str logPrompts methodName)) (.dict as)
          (.dict bs) := by
        refine hagree.mono fun k hk => hk.imp_right fun hredact => ⟨?_, hredact⟩
        simpa using fun hone => hr (hreveal.mp hone)
      exact (same_redacted_iff words _ _ _ hhides).mpr (h hhides)
    · intro hagree
      have hhides : Agree (Hides (revealPrompts str logPrompts methodName)) (.dict as)
          (.dict bs) := hagree.mono fun k hk => .inl hk
      exact (same_redacted_iff words _ _ _ hhides).mpr (h hhides)

end Scrubbed

/-- An event with a prompt inside of a tuple. -/
def tupleEvent (prompt : String) : List (Key ℕ × Value ℕ ℕ) :=
  [(.str "event", .str "job.start".toList),
    (.str "args", .tuple [.dict [(.str "prompt", .str prompt.toList)]])]

/-- The records of two requests with different prompts. -/
theorem agree_tupleEvent {hidden : Key ℕ → Prop} (h : hidden (.str "prompt")) (p q : String) :
    Agree hidden (.dict (tupleEvent p)) (.dict (tupleEvent q)) := by
  have hinner : Agree hidden (.dict [(.str "prompt", .str p.toList)] : Value ℕ ℕ)
      (.dict [(.str "prompt", .str q.toList)]) := by
    refine .dict (fun k => ?_) fun k a b ha hb hk => ?_
    · by_cases hk : k = .str "prompt"
      · simp [hk]
      · rw [lookup_cons_ne _ _ hk, lookup_cons_ne _ _ hk]
    · by_cases heq : k = .str "prompt"
      · exact absurd (heq ▸ h) hk
      · rw [lookup_cons_ne _ _ heq] at ha
        cases ha
  have htuple : Agree hidden (.tuple [.dict [(.str "prompt", .str p.toList)]] : Value ℕ ℕ)
      (.tuple [.dict [(.str "prompt", .str q.toList)]]) := by
    refine .tuple rfl fun i a b ha hb => ?_
    cases i with
    | zero =>
      cases ha
      cases hb
      exact hinner
    | succ n => cases ha
  refine .dict (fun k => ?_) fun k a b ha hb _ => ?_
  · by_cases h1 : k = .str "event"
    · simp [tupleEvent, h1]
    · by_cases h2 : k = .str "args"
      · subst h2
        rfl
      · simp only [tupleEvent]
        rw [lookup_cons_ne _ _ h1, lookup_cons_ne _ _ h2, lookup_cons_ne _ _ h1,
          lookup_cons_ne _ _ h2]
  · by_cases h1 : k = .str "event"
    · subst h1
      cases ha
      cases hb
      exact .str _
    · by_cases h2 : k = .str "args"
      · subst h2
        cases ha
        cases hb
        exact htuple
      · simp only [tupleEvent] at ha
        rw [lookup_cons_ne _ _ h1, lookup_cons_ne _ _ h2] at ha
        cases ha

/-- `log.info("job.start", args=({"prompt": "a"},))`: the walk leaves the tuple as it is. -/
theorem a_prompt_in_a_tuple_is_logged :
    ¬ Noninterferes log_scrub.asciiWords ascii false "info".toList (tupleEvent "a")
      (tupleEvent "b") := by
  intro h
  have hagree : Agree (fun k => isDropKey k = true ∨ isRedactableKey k = true)
      (.dict (tupleEvent "a")) (.dict (tupleEvent "b")) :=
    agree_tupleEvent (.inr (by decide)) "a" "b"
  have hsame := h.prompts (by simp) hagree
  have hhides : Agree (Hides (revealPrompts ascii false "info".toList)) (.dict (tupleEvent "a"))
      (.dict (tupleEvent "b")) := agree_tupleEvent (.inr ⟨rfl, by decide⟩) "a" "b"
  rw [same_redacted_iff _ _ _ _ hhides, covered_dict_iff] at hsame
  have hargs := hsame.2 (.str "args") _ _ rfl rfl (by simp [Hides]; decide)
  rcases hargs with _ | _ | _ | ⟨_ | _ | _ | ⟨-, htuple⟩⟩
  have hdict := same_dict_iff.mp (htuple 0 _ _ rfl rfl)
  have hprompt := hdict.2 (.str "prompt") _ _ rfl rfl
  cases hprompt

end image_gen.log_redaction

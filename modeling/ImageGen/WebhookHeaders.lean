-- The headers of a webhook: which maps a request may carry, and what of them a
-- delivery sends.
import ImageGen.RequestLimits
import ImageGen.WebhookTarget

namespace image_gen.webhook_headers

open image_gen.coroutine image_gen.delivery image_gen.dispatcher image_gen.job_store
  image_gen.json image_gen.py_str image_gen.request_models image_gen.results image_gen.validation
  image_gen.webhook_target
open image_gen.lora_files (LoraTree parseBody generateRequest videoGenerateRequest)
open image_gen.requests (Artifact Rejection Submission VideoTask)

/-! ## The rule -/

/-- A `dict[str, str]`. -/
structure HeaderMap where
  entries : List (String × String)
  distinct : (entries.map (·.1)).Nodup

structure KeyAllowed (key : String) : Prop where
  length : 1 ≤ key.length ∧ key.length ≤ 64
  chars : ∀ c ∈ key.toList, headerKeyChar c = true
  free : reservedHeader key = false

/-- What the documentation promises to take. -/
structure HeadersAllowed (headers : HeaderMap) : Prop where
  count : headers.entries.length ≤ 10
  key : ∀ f ∈ headers.entries, KeyAllowed f.1
  value : ∀ f ∈ headers.entries, f.2.length ≤ 256

def EndsInLineFeed (key : String) : Prop := key.toList.getLast? = some '\n'

/-- An entry that the loop of the validator refuses. -/
def Refused (f : String × String) : Prop :=
  reservedHeader f.1 = true ∨ ¬ MatchesHeaderKey f.1 ∨ 256 < f.2.length

theorem toNat_lt_of_keyChar {c : Char} (h : headerKeyChar c = true) : c.toNat < 128 := by
  simp only [headerKeyChar, Char.isAlphanum, isAlpha_eq, isUpper_eq, isLower_eq,
    Char.isDigit, Bool.or_eq_true, Bool.and_eq_true, decide_eq_true_eq] at h
  have hle : ∀ {n : UInt32}, c.val ≤ n → n.toNat < 128 → c.toNat < 128 := by
    intro n hc hn
    exact Nat.lt_of_le_of_lt (UInt32.le_iff_toNat_le.mp hc) hn
  rcases h with (((h | h) | h) | rfl) | rfl
  · exact hle h.2 (by decide)
  · exact hle h.2 (by decide)
  · exact hle h.2 (by decide)
  · decide
  · decide

section Rule

variable {s : Setting}

/-- The characters of a key that the pattern takes. -/
theorem chars_of_matches {key : String} (h : MatchesHeaderKey key) :
    ∀ c ∈ key.toList, headerKeyChar c = true ∨ c = '\n' := by
  obtain ⟨-, -, hchars⟩ := h
  intro c hc
  split_ifs at hchars with hlast
  · obtain ⟨init, hinit⟩ := List.getLast?_eq_some_iff.mp hlast
    rw [hinit, List.dropLast_concat] at hchars
    rw [hinit, List.mem_append, List.mem_singleton] at hc
    exact hc.imp_left (hchars c)
  · exact Or.inl (hchars c hc)

theorem lower_of_matches (hlower : AsciiLower s.py.str) {key : String}
    (h : MatchesHeaderKey key) : s.py.str.lower key.toList = key.toLower.toList := by
  unfold String.toLower
  rw [String.toList_map]
  apply hlower
  intro c hc
  rcases chars_of_matches h c hc with hchar | rfl
  · exact toNat_lt_of_keyChar hchar
  · decide

/-- The two lists of reserved headers agree. -/
theorem reservedHeader_iff (key : String) : reservedHeader key = true ↔
    key.toLower ∈ reservedWebhookHeaders ∨ "x-imagegen-".toList <+: key.toLower.toList := by
  simp only [reservedHeader, reservedWebhookHeaders, Bool.or_eq_true, List.isPrefixOf_iff_prefix,
    decide_eq_true_eq, List.mem_cons, List.not_mem_nil, or_false]
  rw [or_comm]
  apply or_congr_left
  constructor
  · rintro (h | h | h | h) <;> simp [h]
  · rintro (h | h | h | h) <;> simp [h]

theorem checkHeader_ok_iff (hlower : AsciiLower s.py.str) (f : String × String) :
    (∃ u, checkHeader s f = .ok u) ↔ ¬ Refused f := by
  unfold checkHeader Refused
  simp only [bind_ok_iff, refuseIf_ok_iff, exists_and_right, not_not]
  by_cases hmatch : MatchesHeaderKey f.1
  · rw [lower_of_matches hlower hmatch, String.ofList_toList, reservedHeader_iff]
    simp only [hmatch, not_true_eq_false, false_or, true_and, not_or]
  · simp [hmatch]

/-- Without a line feed at its end a key is matched as a whole. -/
theorem matches_iff {key : String} (hend : ¬ EndsInLineFeed key) :
    MatchesHeaderKey key ↔
      1 ≤ key.length ∧ key.length ≤ 64 ∧ ∀ c ∈ key.toList, headerKeyChar c = true := by
  have hwhole : (if key.toList.getLast? = some '\n' then key.toList.dropLast else key.toList) =
      key.toList := if_neg hend
  unfold MatchesHeaderKey
  rw [hwhole]
  dsimp only
  rw [String.length_toList]

theorem keyAllowed_iff (key : String) :
    KeyAllowed key ↔ reservedHeader key = false ∧ MatchesHeaderKey key ∧ ¬ EndsInLineFeed key := by
  constructor
  · rintro ⟨hlength, hchars, hfree⟩
    have hend : ¬ EndsInLineFeed key := by
      intro hend
      have hfeed := hchars '\n' (List.mem_of_getLast? hend)
      simp [headerKeyChar] at hfeed
    exact ⟨hfree, (matches_iff hend).mpr ⟨hlength.1, hlength.2, hchars⟩, hend⟩
  · rintro ⟨hfree, hmatch, hend⟩
    obtain ⟨hmin, hmax, hchars⟩ := (matches_iff hend).mp hmatch
    exact ⟨⟨hmin, hmax⟩, hchars, hfree⟩

end Rule

/-! ## Admission -/

def headersJson (headers : List (String × String)) : Json :=
  .obj (headers.map fun f => (f.1, .str f.2))

/-- A body with a webhook in it. -/
def withWebhook (fields : List (String × Json)) (webhook : Json) : Json :=
  .obj (py_dict.set fields "webhook" webhook)

def webhookJson (url : String) (headers : List (String × String)) : Json :=
  .obj [("url", .str url), ("headers", headersJson headers)]

section Bodies

variable {c : Context} (fields : List (String × Json))

theorem mapM_header (headers : List (String × String)) :
    (headers.map fun f => (f.1, Json.str f.2)).mapM header = some headers := by
  induction headers with
  | nil => rfl
  | cons f rest ih =>
    rw [List.map_cons, List.mapM_cons, ih]
    rfl

/-- The keys of a map that Pydantic reads are counted. -/
theorem webhookSpec_ofJson (url : String) (headers : List (String × String)) :
    WebhookSpec.ofJson (webhookJson url headers) =
      if LengthWithin 1 2048 url ∧ headers.length ≤ 10 then some ⟨url, headers⟩ else none := by
  have hread : webhookHeaders (headersJson headers) =
      if headers.length ≤ 10 then some headers else none := by
    unfold headersJson webhookHeaders
    simp only [List.length_map, mapM_header]
  have hkeys : ∀ f ∈ [("url", Json.str url), ("headers", headersJson headers)],
      f.1 ∈ ["url", "headers"] := by
    intro f hf
    simp only [List.mem_cons, List.not_mem_nil, or_false] at hf
    rcases hf with rfl | rfl <;> simp
  have hlookup : [("url", Json.str url), ("headers", headersJson headers)].lookup "headers" =
      some (headersJson headers) := rfl
  unfold WebhookSpec.ofJson webhookJson
  simp only [if_pos hkeys, required, field, List.lookup_cons_self, hlookup, hread,
    Option.bind_eq_bind, Option.bind_some, such, text]
  by_cases hurl : LengthWithin 1 2048 url
  · by_cases hcount : headers.length ≤ 10
    · simp [hurl, hcount]
    · simp [hurl, hcount]
  · simp [hurl]

theorem field_withWebhook {α : Type} {key : String} (webhook : Json) (default : α)
    (read : Json → Option α) (hkey : key ≠ "webhook") :
    field (py_dict.set fields "webhook" webhook) key default read =
      field fields key default read := by
  unfold field
  rw [py_dict.lookup_set_ne fields webhook hkey]

theorem required_withWebhook {α : Type} {key : String} (webhook : Json)
    (read : Json → Option α) (hkey : key ≠ "webhook") :
    required (py_dict.set fields "webhook" webhook) key read = required fields key read := by
  unfold required
  rw [py_dict.lookup_set_ne fields webhook hkey]

theorem field_webhook {α : Type} (webhook : Json) (default : α) (read : Json → Option α) :
    field (py_dict.set fields "webhook" webhook) "webhook" default read = read webhook := by
  unfold field
  rw [py_dict.lookup_set_self]

/-- The body is read but for its webhook. -/
theorem parseBody_withWebhook (v : lora_files.Validator) (known : List String) (maxLoras : Nat)
    (webhook : Json) : parseBody v known maxLoras (withWebhook fields webhook) =
      parseBody v known maxLoras (withWebhook fields .null) := by
  have hget : ∀ key, key ≠ "webhook" → ∀ w, Json.get (py_dict.set fields "webhook" w) key =
      Json.get fields key := by
    intro key hkey w
    unfold Json.get
    rw [py_dict.lookup_set_ne fields w hkey]
  have hkeys : ∀ w, (∀ f ∈ py_dict.set fields "webhook" w, f.1 ∈ known) ↔
      "webhook" ∈ known ∧ ∀ f ∈ fields, f.1 ∈ known :=
    fun w => py_dict.forall_key_set (P := fun key => key ∈ known) fields "webhook" w
  unfold parseBody withWebhook
  simp only [hkeys, hget "model" (by decide), hget "loras" (by decide)]

/-- One field that both readings begin with. -/
theorem bind_then {α β γ : Type} {x : Option α} {f : α → Option β} {g : α → Option γ}
    {k : γ → Option β} (h : ∀ a, f a = g a >>= k) : (x >>= f) = (x >>= g) >>= k := by
  cases x with
  | none => rfl
  | some a => exact h a

theorem image_withWebhook (webhook : Json) :
    GenerateRequest.ofJson c (withWebhook fields webhook) = do
      let req ← GenerateRequest.ofJson c (withWebhook fields .null)
      let spec ← optional WebhookSpec.ofJson webhook
      return { req with webhook := spec } := by
  unfold GenerateRequest.ofJson generateRequest
  rw [parseBody_withWebhook fields]
  simp (disch := decide) only [withWebhook, objectFields, seedOf, required_withWebhook,
    field_withWebhook, field_webhook]
  iterate 15 refine bind_then fun _ => ?_
  rfl

theorem video_withWebhook (webhook : Json) :
    VideoGenerateRequest.ofJson c (withWebhook fields webhook) = do
      let req ← VideoGenerateRequest.ofJson c (withWebhook fields .null)
      let spec ← optional WebhookSpec.ofJson webhook
      return { req with webhook := spec } := by
  unfold VideoGenerateRequest.ofJson videoGenerateRequest
  rw [parseBody_withWebhook fields]
  simp (disch := decide) only [withWebhook, objectFields, seedOf, required_withWebhook,
    field_withWebhook, field_webhook]
  iterate 17 refine bind_then fun _ => ?_
  -- two fields follow the webhook
  generalize optional WebhookSpec.ofJson webhook = spec
  generalize field fields "init_image" none (optional text) = image
  generalize field fields "wan_advanced" none (optional (wanVideoAdvancedOptions c)) = advanced
  cases spec <;> cases image <;> cases advanced <;> rfl

end Bodies

section Admission

variable {s : Setting} {t : LoraTree}

section Steps

variable {ε α β γ : Type} {P : Prop}

/-- A step that both sides make. -/
theorem ok_after {x : Except ε α} {f : α → Except ε β} {g : α → Except ε γ}
    (h : ∀ a, (∃ b, f a = .ok b) ↔ (∃ c, g a = .ok c) ∧ P) :
    (∃ b, x >>= f = .ok b) ↔ (∃ c, x >>= g = .ok c) ∧ P := by
  simp only [bind_ok_iff, h]
  constructor
  · rintro ⟨a, hx, hg, hP⟩
    exact ⟨⟨a, hx, hg⟩, hP⟩
  · rintro ⟨⟨a, hx, hg⟩, hP⟩
    exact ⟨a, hx, hg, hP⟩

/-- The step that differs, where the rest does not depend on its result. -/
theorem ok_at {x y : Except ε α} {f : α → Except ε β} {g : α → Except ε γ}
    (hx : (∃ a, x = .ok a) ↔ (∃ a, y = .ok a) ∧ P)
    (hrest : ∀ a a', (∃ b, f a = .ok b) ↔ ∃ c, g a' = .ok c) :
    (∃ b, x >>= f = .ok b) ↔ (∃ c, y >>= g = .ok c) ∧ P := by
  simp only [bind_ok_iff]
  constructor
  · rintro ⟨a, ha, hf⟩
    obtain ⟨⟨a', ha'⟩, hP⟩ := hx.mp ⟨a, ha⟩
    exact ⟨⟨a', ha', (hrest a a').mp hf⟩, hP⟩
  · rintro ⟨⟨a', ha', hg⟩, hP⟩
    obtain ⟨a, ha⟩ := hx.mpr ⟨⟨a', ha'⟩, hP⟩
    exact ⟨a, ha, (hrest a a').mpr hg⟩

end Steps

def HeadersPass (s : Setting) (headers : List (String × String)) : Prop :=
  ∀ f ∈ headers, ∃ u, checkHeader s f = .ok u

theorem checkWebhook_ok_iff (url : String) (headers : List (String × String)) :
    (∃ a, checkWebhook s (some ⟨url, headers⟩) = .ok a) ↔
      (∃ a, checkWebhook s (some ⟨url, []⟩) = .ok a) ∧ HeadersPass s headers := by
  unfold checkWebhook
  refine ok_after fun parsed => ?_
  refine ok_after fun _ => ?_
  refine ok_after fun _ => ?_
  refine ok_at ?_ fun _ _ => ⟨fun _ => ⟨_, rfl⟩, fun _ => ⟨_, rfl⟩⟩
  constructor
  · rintro ⟨us, hus⟩
    exact ⟨⟨[], rfl⟩, ok_of_mapM hus⟩
  · rintro ⟨-, hpass⟩
    obtain ⟨us, hus, -⟩ := mapM_total hpass
    exact ⟨us, hus⟩

theorem image_ok_iff (req : GenerateRequest s.toContext) (url : String)
    (headers : List (String × String)) :
    (∃ job, resolveAndValidate s t { req with webhook := some ⟨url, headers⟩ } = .ok job) ↔
      (∃ job, resolveAndValidate s t { req with webhook := some ⟨url, []⟩ } = .ok job) ∧
        HeadersPass s headers := by
  unfold resolveAndValidate
  refine ok_after fun model => ?_
  refine ok_after fun sampler => ?_
  refine ok_after fun scheduler => ?_
  refine ok_after fun ⟨width, height⟩ => ?_
  refine ok_after fun _ => ?_
  refine ok_after fun _ => ?_
  refine ok_after fun _ => ?_
  refine ok_at (checkWebhook_ok_iff url headers) fun ⟨_, _⟩ ⟨_, _⟩ => ?_
  simp only [bind_ok_iff, pure, Except.pure, Except.ok.injEq, exists_eq']

theorem video_ok_iff (task : VideoTask) (req : VideoGenerateRequest s.toContext) (url : String)
    (headers : List (String × String)) :
    (∃ job, resolveAndValidateVideo s t task { req with webhook := some ⟨url, headers⟩ } =
        .ok job) ↔
      (∃ job, resolveAndValidateVideo s t task { req with webhook := some ⟨url, []⟩ } =
        .ok job) ∧ HeadersPass s headers := by
  unfold resolveAndValidateVideo
  refine ok_after fun model => ?_
  refine ok_after fun _ => ?_
  refine ok_after fun frames => ?_
  refine ok_after fun steps => ?_
  refine ok_after fun _ => ?_
  refine ok_after fun cfg => ?_
  refine ok_after fun shift => ?_
  refine ok_after fun scheduler => ?_
  refine ok_after fun ⟨width, height⟩ => ?_
  refine ok_after fun _ => ?_
  refine ok_at (checkWebhook_ok_iff url headers) fun ⟨_, _⟩ ⟨_, _⟩ => ?_
  simp only [bind_ok_iff, pure, Except.pure, Except.ok.injEq, exists_eq']

theorem image_webhook {req : GenerateRequest s.toContext} {job : ValidatedJob}
    (h : resolveAndValidate s t req = .ok job) :
    checkWebhook s req.webhook = .ok (job.webhookUrl, job.webhookHeaders) := by
  unfold resolveAndValidate at h
  obtain ⟨model, -, h⟩ := bind_ok h
  obtain ⟨sampler, -, h⟩ := bind_ok h
  obtain ⟨scheduler, -, h⟩ := bind_ok h
  obtain ⟨⟨width, height⟩, -, h⟩ := bind_ok h
  obtain ⟨-, -, h⟩ := bind_ok h
  obtain ⟨-, -, h⟩ := bind_ok h
  obtain ⟨-, -, h⟩ := bind_ok h
  obtain ⟨⟨url, headers⟩, hwebhook, h⟩ := bind_ok h
  obtain ⟨loras, -, h⟩ := bind_ok h
  obtain ⟨-, -, h⟩ := bind_ok h
  obtain ⟨image, -, h⟩ := bind_ok h
  cases h
  exact hwebhook

theorem video_webhook {task : VideoTask} {req : VideoGenerateRequest s.toContext}
    {job : validation.ValidatedVideoJob} (h : resolveAndValidateVideo s t task req = .ok job) :
    checkWebhook s req.webhook = .ok (job.webhookUrl, job.webhookHeaders) := by
  unfold resolveAndValidateVideo at h
  obtain ⟨model, -, h⟩ := bind_ok h
  obtain ⟨-, -, h⟩ := bind_ok h
  obtain ⟨frames, -, h⟩ := bind_ok h
  obtain ⟨steps, -, h⟩ := bind_ok h
  obtain ⟨-, -, h⟩ := bind_ok h
  obtain ⟨cfg, -, h⟩ := bind_ok h
  obtain ⟨shift, -, h⟩ := bind_ok h
  obtain ⟨scheduler, -, h⟩ := bind_ok h
  obtain ⟨⟨width, height⟩, -, h⟩ := bind_ok h
  obtain ⟨-, -, h⟩ := bind_ok h
  obtain ⟨⟨url, headers⟩, hwebhook, h⟩ := bind_ok h
  obtain ⟨image, -, h⟩ := bind_ok h
  obtain ⟨-, -, h⟩ := bind_ok h
  obtain ⟨user, -, h⟩ := bind_ok h
  obtain ⟨defaults, -, h⟩ := bind_ok h
  obtain ⟨-, -, h⟩ := bind_ok h
  obtain ⟨-, -, h⟩ := bind_ok h
  obtain ⟨path, -, h⟩ := bind_ok h
  cases h
  exact hwebhook

/-- The headers that are stored. -/
theorem checkWebhook_headers {url : String} {headers : List (String × String)}
    {out : Option String × Option (List (String × String))}
    (h : checkWebhook s (some ⟨url, headers⟩) = .ok out) : out.2.getD [] = headers := by
  unfold checkWebhook at h
  obtain ⟨parsed, -, h⟩ := bind_ok h
  obtain ⟨-, -, h⟩ := bind_ok h
  obtain ⟨-, -, h⟩ := bind_ok h
  obtain ⟨-, -, h⟩ := bind_ok h
  cases h
  by_cases hempty : headers = []
  · simp [hempty]
  · simp [hempty]

theorem map_ok_iff {ε α β : Type} {x : Except ε α} {f : α → β} :
    (∃ b, x.map f = .ok b) ↔ ∃ a, x = .ok a := by
  cases x with
  | error e => simp [Except.map]
  | ok a => simp [Except.map]

variable (fields : List (String × Json)) (url : String)

theorem optional_webhookSpec (headers : List (String × String)) :
    optional WebhookSpec.ofJson (webhookJson url headers) =
      if LengthWithin 1 2048 url ∧ headers.length ≤ 10 then some (some ⟨url, headers⟩)
      else none := by
  change (WebhookSpec.ofJson (webhookJson url headers)).map some = _
  rw [webhookSpec_ofJson]
  split_ifs <;> rfl

theorem submit_image (headers : List (String × String)) :
    submit s t .image (withWebhook fields (webhookJson url headers)) =
      match GenerateRequest.ofJson s.toContext (withWebhook fields .null) with
      | some req =>
        if LengthWithin 1 2048 url ∧ headers.length ≤ 10 then
          (resolveAndValidate s t { req with webhook := some ⟨url, headers⟩ }).map fun job =>
            ⟨.image, req.model, withWebhook fields (webhookJson url headers), req.mode,
              job.webhookUrl, job.webhookHeaders⟩
        else .error (.pydantic "invalid body")
      | none => .error (.pydantic "invalid body") := by
  simp only [submit]
  rw [image_withWebhook, optional_webhookSpec]
  cases GenerateRequest.ofJson s.toContext (withWebhook fields .null) with
  | none => rfl
  | some req => split_ifs <;> rfl

theorem submit_video (task : VideoTask) (headers : List (String × String)) :
    submit s t (.video task) (withWebhook fields (webhookJson url headers)) =
      match VideoGenerateRequest.ofJson s.toContext (withWebhook fields .null) with
      | some req =>
        if LengthWithin 1 2048 url ∧ headers.length ≤ 10 then
          (resolveAndValidateVideo s t task { req with webhook := some ⟨url, headers⟩ }).map
            fun job => ⟨.video task, req.model, withWebhook fields (webhookJson url headers),
              req.mode, job.webhookUrl, job.webhookHeaders⟩
        else .error (.pydantic "invalid body")
      | none => .error (.pydantic "invalid body") := by
  simp only [submit]
  rw [video_withWebhook, optional_webhookSpec]
  cases VideoGenerateRequest.ofJson s.toContext (withWebhook fields .null) with
  | none => rfl
  | some req => split_ifs <;> rfl

/-- A body with headers is accepted when the rest of it is, and the headers pass. -/
theorem submit_ok_iff (artifact : Artifact) (headers : List (String × String)) :
    (∃ r, submit s t artifact (withWebhook fields (webhookJson url headers)) = .ok r) ↔
      (∃ r, submit s t artifact (withWebhook fields (webhookJson url [])) = .ok r) ∧
        headers.length ≤ 10 ∧ HeadersPass s headers := by
  cases artifact with
  | image =>
    simp only [submit_image]
    cases GenerateRequest.ofJson s.toContext (withWebhook fields .null) with
    | none => simp
    | some req =>
      by_cases hurl : LengthWithin 1 2048 url
      · by_cases hcount : headers.length ≤ 10
        · simp only [hurl, hcount, true_and, if_true, List.length_nil, Nat.zero_le, map_ok_iff]
          exact image_ok_iff req url headers
        · simp [hurl, hcount]
      · simp [hurl]
  | video task =>
    simp only [submit_video]
    cases VideoGenerateRequest.ofJson s.toContext (withWebhook fields .null) with
    | none => simp
    | some req =>
      by_cases hurl : LengthWithin 1 2048 url
      · by_cases hcount : headers.length ≤ 10
        · simp only [hurl, hcount, true_and, if_true, List.length_nil, Nat.zero_le, map_ok_iff]
          exact video_ok_iff task req url headers
        · simp [hurl, hcount]
      · simp [hurl]

theorem submit_headers {artifact : Artifact} {headers : List (String × String)} {r : Submission}
    (h : submit s t artifact (withWebhook fields (webhookJson url headers)) = .ok r) :
    r.webhookHeaders.getD [] = headers := by
  cases artifact with
  | image =>
    rw [submit_image] at h
    split at h
    · split_ifs at h
      obtain ⟨job, hjob, rfl⟩ := map_ok h
      exact checkWebhook_headers (image_webhook hjob)
    · cases h
  | video task =>
    rw [submit_video] at h
    split at h
    · split_ifs at h
      obtain ⟨job, hjob, rfl⟩ := map_ok h
      exact checkWebhook_headers (video_webhook hjob)
    · cases h

end Admission

/-! ## Delivery -/

def serviceHeaders (id event deliveryId signature : String) (ts : Nat) : List (String × String) := [
  ("Content-Type", "application/json"),
  ("User-Agent", "image-gen-service/0.1"),
  ("X-ImageGen-Event", event),
  ("X-ImageGen-Job-Id", id),
  ("X-ImageGen-Delivery-Id", deliveryId),
  ("X-ImageGen-Timestamp", toString ts),
  ("X-ImageGen-Signature", "t=" ++ toString ts ++ ",v1=" ++ signature)]

/-- The request of a delivery: what the service says of the job, signed, and then
the headers of the caller. -/
def Carries (sign : Signer) (id : String) (headers : List (String × String))
    (request : Request) : Prop :=
  ∃ job created event deliveryId secret ts, job.id = id ∧
    buildPayload job created = (event, request.payload) ∧
    request.headers =
      serviceHeaders id event deliveryId (sign ts request.payload secret) ts ++ headers

/-- New keys that are not reserved come last, in their order. -/
theorem fold_setHeader {base headers : List (String × String)}
    (hfree : ∀ f ∈ headers, reservedHeader f.1 = false) (hdistinct : (headers.map (·.1)).Nodup)
    (hnew : ∀ f ∈ headers, ∀ b ∈ base, b.1 ≠ f.1) :
    headers.foldl (fun sofar f => if reservedHeader f.1 then sofar else setHeader sofar f.1 f.2)
      base = base ++ headers := by
  induction headers generalizing base with
  | nil => simp
  | cons f rest ih =>
    obtain ⟨hfirst, hrest⟩ := List.nodup_cons.mp hdistinct
    have hset : setHeader base f.1 f.2 = base ++ [f] := by
      have hany : ¬ base.any (fun h => h.1 = f.1) = true := by
        simp only [List.any_eq_true, decide_eq_true_eq, not_exists, not_and]
        exact hnew f List.mem_cons_self
      unfold setHeader
      rw [if_neg hany]
    have hstep : (if reservedHeader f.1 then base else setHeader base f.1 f.2) = base ++ [f] := by
      rw [hfree f List.mem_cons_self, if_neg Bool.false_ne_true, hset]
    rw [List.foldl_cons, hstep, ih (fun g hg => hfree g (List.mem_cons_of_mem f hg)) hrest]
    · rw [List.append_assoc, List.singleton_append]
    · intro g hg b hb
      rcases List.mem_append.mp hb with hb | hb
      · exact hnew g (List.mem_cons_of_mem f hg) b hb
      · rw [List.mem_singleton.mp hb]
        intro heq
        apply hfirst
        exact List.mem_map.mpr ⟨g, hg, heq.symm⟩

def serviceNames : List String := ["Content-Type", "User-Agent", "X-ImageGen-Event",
  "X-ImageGen-Job-Id", "X-ImageGen-Delivery-Id", "X-ImageGen-Timestamp", "X-ImageGen-Signature"]

theorem reserved_serviceNames : ∀ k ∈ serviceNames, reservedHeader k = true := by decide +kernel

theorem reserved_serviceHeaders (id event deliveryId signature : String) (ts : Nat) :
    ∀ b ∈ serviceHeaders id event deliveryId signature ts, reservedHeader b.1 = true := by
  intro b hb
  have hnames : (serviceHeaders id event deliveryId signature ts).map (·.1) = serviceNames := rfl
  apply reserved_serviceNames
  rw [← hnames]
  exact List.mem_map_of_mem hb

theorem buildHeaders_eq {job : Job} {headers : List (String × String)}
    (hstored : job.webhookHeaders.getD [] = headers)
    (hfree : ∀ f ∈ headers, reservedHeader f.1 = false) (hdistinct : (headers.map (·.1)).Nodup)
    (event deliveryId signature : String) (ts : Nat) :
    buildHeaders job event deliveryId signature ts =
      serviceHeaders job.id event deliveryId signature ts ++ headers := by
  unfold buildHeaders
  rw [hstored]
  apply fold_setHeader hfree hdistinct
  intro f hf b hb heq
  have hreserved := reserved_serviceHeaders job.id event deliveryId signature ts b hb
  rw [heq, hfree f hf] at hreserved
  cases hreserved

section Runs

variable {sign : Signer} {id : String} {headers : List (String × String)}

def Sends (sign : Signer) (id : String) (headers : List (String × String)) (op : Op) : Prop :=
  ∀ request, op = .post request → Carries sign id headers request

theorem sends_of_quiet {α : Type} {p : Prog α} (h : p.All Quiet) :
    p.All (Sends sign id headers) := by
  refine h.mono fun op hop request hpost => ?_
  subst hpost
  -- a POST is ready after a check only
  cases (hop none).1

variable {job : Job} (hid : job.id = id) (hstored : job.webhookHeaders.getD [] = headers)
  (hfree : ∀ f ∈ headers, reservedHeader f.1 = false) (hdistinct : (headers.map (·.1)).Nodup)
include hid hstored hfree hdistinct

theorem carries_buildRequest (url secret : String) :
    (buildRequest sign job url secret).Gives (Carries sign id headers) := by
  unfold buildRequest
  refine Co.gives_bind _ fun created => ?_
  refine Co.gives_bind _ fun ts => ?_
  refine Co.gives_bind _ fun deliveryId => ?_
  refine ⟨job, created, _, deliveryId, secret, ts, hid, rfl, ?_⟩
  rw [← hid]
  exact buildHeaders_eq hstored hfree hdistinct _ _ _ ts

theorem sends_attemptDelivery (url : String) (n : Nat) :
    (attemptDelivery sign job url n).All (Sends sign id headers) := by
  have hask : ∀ op, Quiet op → (ask op).All (Sends sign id headers) :=
    fun op hop => sends_of_quiet (quiet_ask hop)
  unfold attemptDelivery
  refine Co.all_bind (hask _ fun u => ⟨trivial, fun _ => rfl⟩) fun attempt => ?_
  refine Co.all_bind (hask _ fun u => ⟨trivial, fun _ => rfl⟩) fun _ => ?_
  refine Co.all_bind ?_ fun allowed => ?_
  · refine (Co.all_call (Op.toctouAllows url)).mpr fun request hpost => ?_
    cases hpost
  split
  · refine Co.all_bind (hask _ fun u => ⟨trivial, fun _ => rfl⟩) fun secret => ?_
    cases secret with
    | none => exact sends_of_quiet (quiet_recordFailure _ _)
    | some secret =>
      refine Co.all_bind_gives (sends_of_quiet (quiet_buildRequest sign job url secret))
        (carries_buildRequest hid hstored hfree hdistinct url secret) fun request hcarries => ?_
      refine Co.all_bind ?_ fun outcome => sends_of_quiet (quiet_recordOutcome _ _ _)
      unfold tryPost
      refine Co.all_tryCatch ?_ fun e => ?_
      · refine Co.all_bind ((Co.all_call (Op.post request)).mpr ?_) fun _ => Co.all_pure _
        intro request' hpost
        cases hpost
        exact hcarries
      · cases e <;> trivial
  · exact sends_of_quiet (quiet_recordFailure _ _)

theorem sends_processOne : (processOne sign job).All (Sends sign id headers) := by
  have hask : ∀ op, Quiet op → (ask op).All (Sends sign id headers) :=
    fun op hop => sends_of_quiet (quiet_ask hop)
  unfold processOne
  split
  · trivial
  · split
    · exact hask _ fun u => ⟨trivial, fun _ => rfl⟩
    · refine Co.all_bind (hask _ fun u => ⟨trivial, fun _ => rfl⟩) fun latest => ?_
      refine Co.all_bind (hask _ fun u => ⟨trivial, fun _ => rfl⟩) fun now => ?_
      refine Co.all_bind (sends_of_quiet (quiet_settleLatest now latest)) fun go => ?_
      split
      · exact sends_attemptDelivery hid hstored hfree hdistinct _ _
      · trivial

end Runs

/-! ## The row keeps the headers -/

section Kept

def kept (j : Job) : String × Option (List (String × String)) := (j.id, j.webhookHeaders)

theorem kept_transition {j : Job} {target : JobStatus} {f : Job → Job}
    (hf : kept (f j) = kept j) : kept (transition j target f) = kept j := by
  unfold transition
  split
  · exact hf
  · rfl

theorem kept_work (w : WorkerWrite) (now : Nat) (j : Job) : kept (w.apply now j) = kept j := by
  cases w with
  | setRunning promptId clientId => exact kept_transition rfl
  | setCompleted outputKeys result => exact kept_transition rfl
  | setFailed errorCode errorMessage => exact kept_transition rfl

theorem kept_setFetched (now : Nat) (j : Job) : kept (j.setFetched now) = kept j := by
  unfold Job.setFetched
  split <;> rfl

theorem kept_markDelivered (mode : JobMode) (now : Nat) (j : Job) :
    kept (markDelivered mode now j) = kept j := by
  cases mode <;> simp only [markDelivered, Job.markResponseDelivered,
    Job.markInitialResponseDelivered] <;> split <;> rfl

theorem kept_recover {c c' : Cell} {now : Nat} (h : recover now c = some c') :
    kept c'.job = kept c.job := by
  unfold recover at h
  split at h
  · split at h <;> cases h <;> rfl
  · cases h
    rfl
  · cases h
    rfl
  · cases h

theorem kept_cancel (c : Cell) (pc : HandlerPc) :
    kept (c.cancelWatcher.setHandlerPc pc).job = kept c.job := by
  unfold Cell.cancelWatcher
  split <;> rfl

theorem kept_move {c c' : Cell} {m : Move} (h : move c m = some c') :
    kept c'.job = kept c.job := by
  cases m with
  | enqueue =>
    simp only [move, Option.ite_none_right_eq_some] at h
    obtain ⟨-, h⟩ := h
    split at h <;> cases h <;> rfl
  | receive =>
    simp only [move, Option.ite_none_right_eq_some] at h
    obtain ⟨-, h⟩ := h
    split at h <;> cases h <;> exact kept_cancel c _
  | handlerEnds =>
    simp only [move, Option.ite_none_left_eq_some, Option.some.injEq] at h
    obtain ⟨-, rfl⟩ := h
    exact kept_cancel c _
  | setFetched now =>
    simp only [move, Option.ite_none_right_eq_some, Option.some.injEq] at h
    obtain ⟨-, rfl⟩ := h
    exact kept_setFetched now c.job
  | markDelivered now =>
    simp only [move, Option.ite_none_right_eq_some, Option.some.injEq] at h
    obtain ⟨-, rfl⟩ := h
    exact kept_markDelivered _ now c.job
  | work w now =>
    simp only [move, Option.ite_none_right_eq_some, Option.some.injEq] at h
    obtain ⟨-, rfl⟩ := h
    exact kept_work w now c.job
  | fetch now =>
    simp only [move, Option.ite_none_right_eq_some, Option.some.injEq] at h
    obtain ⟨-, rfl⟩ := h
    exact kept_setFetched now c.job
  | recover now =>
    simp only [move, Option.ite_none_right_eq_some] at h
    exact kept_recover h.2
  | _ =>
    simp only [move, Option.ite_none_right_eq_some, Option.some.injEq] at h
    obtain ⟨-, rfl⟩ := h
    rfl

theorem kept_exec (inp : Input) (op : Op) (rows : Rows) :
    kept (dispatcher.exec inp op rows).2.job = kept rows.job := by
  cases op with
  | createAttempt attemptN retryAt =>
    simp only [dispatcher.exec]
    split <;> rfl
  | _ => rfl

end Kept

/-! ## Runs -/

/-- A step of the job, or a crash. -/
def step (sign : Signer) (c : Cell) : Option Act → Option Cell
  | some a => delivery.next sign c a
  | none => some (crash c)

structure Inv (sign : Signer) (j : Job) (headers : List (String × String)) (c : Cell) : Prop where
  kept : kept c.job = kept j
  program : ∀ p, c.dispatch = some p → p.All (Sends sign j.id headers)

theorem sends_inFlight {sign : Signer} {id : String} {headers : List (String × String)}
    {p p' : Prog Unit} (h : p.All (Sends sign id headers)) (hp : inFlight p = some p') :
    p'.All (Sends sign id headers) := by
  cases p with
  | ret a => cases hp
  | raise e => cases hp
  | await op k =>
    cases hp
    exact h

theorem inv_step {sign : Signer} {j : Job} {headers : List (String × String)}
    (hstored : j.webhookHeaders.getD [] = headers)
    (hfree : ∀ f ∈ headers, reservedHeader f.1 = false) (hdistinct : (headers.map (·.1)).Nodup)
    {c c' : Cell} {a : Option Act} (h : Inv sign j headers c) (hstep : step sign c a = some c') :
    Inv sign j headers c' := by
  obtain ⟨hkept, hprogram⟩ := h
  rcases a with _ | m | _ | inp | message
  · cases hstep
    exact ⟨hkept, fun p hp => by cases hp⟩
  · have hdispatch := (grows_move hstep).dispatch
    exact ⟨(kept_move hstep).trans hkept, fun p hp => hprogram p (hdispatch ▸ hp)⟩
  · simp only [step, delivery.next, Option.ite_none_right_eq_some, Option.some.injEq] at hstep
    obtain ⟨-, rfl⟩ := hstep
    have hid : c.job.id = j.id := congrArg Prod.fst hkept
    have hheaders : c.job.webhookHeaders = j.webhookHeaders := congrArg Prod.snd hkept
    refine ⟨hkept, fun p hp => sends_inFlight ?_ hp⟩
    exact sends_processOne hid (by rw [hheaders, hstored]) hfree hdistinct
  · simp only [step, delivery.next] at hstep
    split at hstep
    · next op k hdispatch =>
      simp only [Option.ite_none_right_eq_some, Option.some.injEq] at hstep
      obtain ⟨-, rfl⟩ := hstep
      refine ⟨(kept_exec inp op c.rows).trans hkept, fun p hp => sends_inFlight ?_ hp⟩
      exact (hprogram _ hdispatch).2 _
    · cases hstep
  · simp only [step, delivery.next] at hstep
    split at hstep
    · next op k hdispatch =>
      cases hstep
      exact ⟨hkept, fun p hp => sends_inFlight ((hprogram _ hdispatch).2 _) hp⟩
    · cases hstep

/-- A delivery is on its way. -/
def Posting (c : Cell) (request : Request) : Prop :=
  ∃ k, c.dispatch = some (.await (.post request) k)

theorem carries_of_run {sign : Signer} {r : Submission} {headers : List (String × String)}
    (hstored : r.webhookHeaders.getD [] = headers)
    (hfree : ∀ f ∈ headers, reservedHeader f.1 = false) (hdistinct : (headers.map (·.1)).Nodup)
    {binary : Bool} {id : String} {now : Nat} {acts : List (Option Act)} {c : Cell}
    (hrun : runs.exec (step sign) (created r binary id now) acts = some c) {request : Request}
    (hpost : Posting c request) : Carries sign id headers request := by
  have hrow : (r.row id now).webhookHeaders.getD [] = headers := by
    rw [← hstored]
    simp only [Submission.row, Job.fresh]
    rcases r.webhookHeaders with _ | _ | ⟨f, rest⟩ <;> rfl
  have hinit : Inv sign (r.row id now) headers (created r binary id now) :=
    ⟨rfl, fun p hp => by cases hp⟩
  have hinv := runs.invariant_of_next (fun _ _ _ h hs => inv_step hrow hfree hdistinct h hs)
    hinit hrun
  obtain ⟨k, hk⟩ := hpost
  exact (hinv.program _ hk).1 request rfl

/-! ## Every map -/

section Main

variable (s : Setting) (t : LoraTree) (sign : Signer) (artifact : Artifact)
  (fields : List (String × Json)) (url : String) (headers : HeaderMap)

def bodyWith : Json := withWebhook fields (webhookJson url headers.entries)

/-- The promise about a header map, in a request that is fine without it. -/
structure HeadersHold : Prop where
  accepted : (∃ r, submit s t artifact (bodyWith fields url headers) = .ok r) ↔
    HeadersAllowed headers
  delivered : ∀ r binary id now acts c request,
    submit s t artifact (bodyWith fields url headers) = .ok r →
      runs.exec (step sign) (created r binary id now) acts = some c → Posting c request →
        Carries sign id headers.entries request

/-- Where a key ends in a line feed, something else is wrong. -/
def LineFeedsRefused : Prop :=
  ∀ f ∈ headers.entries, EndsInLineFeed f.1 →
    10 < headers.entries.length ∨ ∃ g ∈ headers.entries, Refused g

end Main

section Rule

variable {s : Setting} {headers : HeaderMap}

theorem headersAllowed_iff : HeadersAllowed headers ↔
    (headers.entries.length ≤ 10 ∧ ∀ f ∈ headers.entries, ¬ Refused f) ∧
      ∀ f ∈ headers.entries, ¬ EndsInLineFeed f.1 := by
  constructor
  · rintro ⟨hcount, hkey, hvalue⟩
    refine ⟨⟨hcount, fun f hf hrefused => ?_⟩, fun f hf => ((keyAllowed_iff f.1).mp (hkey f hf)).2.2⟩
    obtain ⟨hfree, hmatch, -⟩ := (keyAllowed_iff f.1).mp (hkey f hf)
    rcases hrefused with hreserved | hother | hlong
    · rw [hfree] at hreserved
      cases hreserved
    · exact hother hmatch
    · exact absurd hlong (not_lt.mpr (hvalue f hf))
  · rintro ⟨⟨hcount, hpass⟩, hend⟩
    refine ⟨hcount, fun f hf => ?_, fun f hf => ?_⟩
    · have hf' := hpass f hf
      simp only [Refused, not_or, not_not, Bool.not_eq_true] at hf'
      exact (keyAllowed_iff f.1).mpr ⟨hf'.1, hf'.2.1, hend f hf⟩
    · exact not_lt.mp fun hlong => hpass f hf (Or.inr (Or.inr hlong))

theorem headersPass_iff (hlower : AsciiLower s.py.str) :
    HeadersPass s headers.entries ↔ ∀ f ∈ headers.entries, ¬ Refused f :=
  forall₂_congr fun f _ => checkHeader_ok_iff hlower f

end Rule

/-- A header map is taken as the rule says, and delivered, unless a line feed at
the end of a key is all that is wrong with it. -/
theorem headers_hold_iff {s : Setting} {t : LoraTree} {sign : Signer} {artifact : Artifact}
    {fields : List (String × Json)} {url : String} {headers : HeaderMap}
    (hlower : AsciiLower s.py.str)
    (hrest : ∃ r, submit s t artifact (withWebhook fields (webhookJson url [])) = .ok r) :
    HeadersHold s t sign artifact fields url headers ↔ LineFeedsRefused headers := by
  have haccepted : (∃ r, submit s t artifact (bodyWith fields url headers) = .ok r) ↔
      headers.entries.length ≤ 10 ∧ ∀ f ∈ headers.entries, ¬ Refused f := by
    unfold bodyWith
    rw [submit_ok_iff, headersPass_iff hlower]
    simp [hrest]
  constructor
  · rintro ⟨hrule, -⟩ f hf hend
    rw [haccepted, headersAllowed_iff] at hrule
    by_contra hnone
    rw [not_or, not_lt] at hnone
    have hpass : ∀ g ∈ headers.entries, ¬ Refused g := fun g hg hr => hnone.2 ⟨g, hg, hr⟩
    exact (hrule.mp ⟨hnone.1, hpass⟩).2 f hf hend
  · intro hslip
    refine ⟨?_, ?_⟩
    · rw [haccepted, headersAllowed_iff]
      refine ⟨fun h => ⟨h, fun f hf hend => ?_⟩, fun h => h.1⟩
      rcases hslip f hf hend with hcount | ⟨g, hg, hrefused⟩
      · exact absurd h.1 (not_le.mpr hcount)
      · exact h.2 g hg hrefused
    · intro r binary id now acts c request hr hrun hpost
      have hpass := (haccepted.mp ⟨r, hr⟩).2
      have hfree : ∀ f ∈ headers.entries, reservedHeader f.1 = false := by
        intro f hf
        have hf' := hpass f hf
        simp only [Refused, not_or, Bool.not_eq_true] at hf'
        exact hf'.1
      exact carries_of_run (submit_headers fields url hr) hfree headers.distinct hrun hpost

/-- A service that can read one webhook URL. -/
def hookSetting : Setting :=
  { request_limits.smallSetting with urlparse := fun _ => .ok ⟨"https", some "hooks.test"⟩ }

def traceMap (key : String) : HeaderMap where
  entries := [(key, "7")]
  distinct := by simp

def hookFields : List (String × Json) := [("model", .str "noob"), ("prompt", .str "a cat")]

theorem hook_rest : ∃ r, submit hookSetting request_limits.noFiles .image
    (withWebhook hookFields (webhookJson "https://hooks.test/done" [])) = .ok r := by
  have hok : (submit hookSetting request_limits.noFiles .image
      (withWebhook hookFields (webhookJson "https://hooks.test/done" []))).isOk = true := by
    decide +kernel
  rcases hr : submit hookSetting request_limits.noFiles .image
    (withWebhook hookFields (webhookJson "https://hooks.test/done" [])) with e | r <;>
    rw [hr] at hok
  · cases hok
  · exact ⟨r, rfl⟩

theorem headers_hold_trace : HeadersHold hookSetting request_limits.noFiles smallSign .image
    hookFields "https://hooks.test/done" (traceMap "X-Trace") := by
  refine (headers_hold_iff ascii_asciiLower hook_rest).mpr fun f hf hend => ?_
  rw [List.mem_singleton.mp hf] at hend
  unfold EndsInLineFeed at hend
  exact absurd hend (by decide +kernel)

/-- The pattern takes a line feed after the key. -/
theorem a_key_with_a_line_feed_is_accepted :
    (∃ r, submit hookSetting request_limits.noFiles .image (bodyWith hookFields
      "https://hooks.test/done" (traceMap "X-Trace\n")) = .ok r) ∧
      ¬ HeadersAllowed (traceMap "X-Trace\n") ∧
      ¬ HeadersHold hookSetting request_limits.noFiles smallSign .image hookFields
        "https://hooks.test/done" (traceMap "X-Trace\n") := by
  have haccepted : ∃ r, submit hookSetting request_limits.noFiles .image (bodyWith hookFields
      "https://hooks.test/done" (traceMap "X-Trace\n")) = .ok r := by
    have hpass : ¬ Refused ("X-Trace\n", "7") := by
      unfold Refused
      decide +kernel
    refine (submit_ok_iff _ _ _ _).mpr ⟨hook_rest, by decide, fun f hf => ?_⟩
    rw [List.mem_singleton.mp hf]
    exact (checkHeader_ok_iff ascii_asciiLower _).mpr hpass
  have hrule : ¬ HeadersAllowed (traceMap "X-Trace\n") := by
    intro h
    have hkey := (h.key ("X-Trace\n", "7") List.mem_cons_self).chars '\n' (by decide +kernel)
    exact absurd hkey (by decide)
  exact ⟨haccepted, hrule, fun h => hrule (h.accepted.mp haccepted)⟩

end image_gen.webhook_headers

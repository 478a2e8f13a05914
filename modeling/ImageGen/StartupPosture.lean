-- The startup checks (`app/startup/checks.py`), and what the service may then send in prod: the
-- checks read the environment once, the dispatcher reads it again at each attempt.
import ImageGen.Preparability
import ImageGen.WebhookHeaders

namespace image_gen.startup_posture

open image_gen.coroutine image_gen.dispatcher image_gen.webhook_target
open image_gen.delivery (Act Cell grows_move inFlight)
open image_gen.results (bind_ok refuseIf refuseIf_ok)
open image_gen.webhook_headers (reserved_serviceHeaders serviceHeaders)
open image_gen.graph (strip)
open image_gen.registry (LoadError Site YamlFile loadRegistry)
open image_gen.requests (ModelConfig)

/-! ## The checks -/

/-- What the checks call outside, beside what the dispatcher calls. -/
structure Boot where
  lib : Lib
  /-- `urlparse(url).port`. An error is a `ValueError`. -/
  port : String → Except String (Option Nat)
  /-- `ip_address(text).is_global`. -/
  isGlobal : String → Bool
  getaddrinfo : String → Option Nat → Except String (List String)
  /-- `repr`. -/
  repr : String → String

structure StartupContext where
  imagegenEnv : String
  comfyuiUrl : String
  webhookAllowedHosts : String
  webhookAllowAnyHost : Bool
  webhookSigningSecrets : String

/-- The paths and the budget of the registry are in its `Site`. -/
def buildContextFromEnv (b : Boot) (env : Environ) : StartupContext where
  imagegenEnv := imagegenEnv b.lib env
  comfyuiUrl := (env "COMFYUI_URL").getD "http://comfyui:8188"
  webhookAllowedHosts := (env "WEBHOOK_ALLOWED_HOSTS").getD ""
  webhookAllowAnyHost := flag b.lib env "WEBHOOK_ALLOW_ANY_HOST"
  webhookSigningSecrets := (env "WEBHOOK_SIGNING_SECRETS").getD ""

inductive StartupError
  /-- `StartupCheckError`. -/
  | check (stage reason : String)
  | other (kind message : String)

def refuse (p : Prop) [Decidable p] (stage reason : String) : Except StartupError Unit :=
  refuseIf p (.check stage reason)

/-- `[p.strip() for p in raw.split(",") if p.strip()]`. -/
def parts (raw : String) : List (List Char) :=
  ((raw.toList.splitOn ',').map strip).filter fun p => p ≠ []

def checkProdWebhookPosture (ctx : StartupContext) : Except StartupError Unit :=
  if ctx.imagegenEnv ≠ "prod" then .ok ()
  else do
    refuse (parts ctx.webhookAllowedHosts = []) "webhook_allowed_hosts_empty"
      "WEBHOOK_ALLOWED_HOSTS must be non-empty in prod"
    refuse (ctx.webhookAllowAnyHost = true) "webhook_allow_any_host_forbidden"
      "WEBHOOK_ALLOW_ANY_HOST=true is forbidden in prod"
    refuse (strip ctx.webhookSigningSecrets.toList = []) "webhook_signing_secrets_empty"
      "WEBHOOK_SIGNING_SECRETS must be non-empty in prod"

/-- The loop over the answers of the resolver. -/
def checkAddresses (b : Boot) : List String → Except StartupError Unit
  | [] => .ok ()
  | address :: rest =>
    match b.lib.ipAddress address with
    | .error _ => .error (.check "comfyui_ip_invalid" ("invalid IP " ++ b.repr address))
    | .ok _ => do
      refuse (b.isGlobal address = true) "comfyui_public_ip_forbidden"
        ("COMFYUI_URL resolves to public IP " ++ address)
      checkAddresses b rest

def checkComfyuiEndpointNotPublic (b : Boot) (ctx : StartupContext) : Except StartupError Unit :=
  match b.lib.urlparse ctx.comfyuiUrl with
  | .error message => .error (.other "ValueError" message)
  | .ok parsed => do
    let host := parsed.hostname.getD ""
    refuse (host = "") "comfyui_url_invalid"
      ("COMFYUI_URL has no hostname: " ++ b.repr ctx.comfyuiUrl)
    match b.port ctx.comfyuiUrl with
    | .error message => .error (.other "ValueError" message)
    | .ok port =>
      match b.getaddrinfo host port with
      | .error message =>
        .error (.check "comfyui_dns_failed"
          ("cannot resolve host " ++ b.repr host ++ ": " ++ message))
      | .ok infos => do
        refuse (infos = []) "comfyui_dns_empty" ("no DNS answers for host " ++ b.repr host)
        checkAddresses b infos

/-- `str(exc)`. -/
def loadErrorText : LoadError → String
  | .invalid stage reason => stage ++ ": " ++ reason
  | .other _ message => message

def loadRegistryChecked (site : Site) (yaml : YamlFile) : Except StartupError (List ModelConfig) :=
  (loadRegistry site yaml).mapError fun e => .check "registry_validation_failed" (loadErrorText e)

def runStartupChecks (b : Boot) (ctx : StartupContext) (site : Site) (yaml : YamlFile) :
    Except StartupError (List ModelConfig) := do
  checkProdWebhookPosture ctx
  checkComfyuiEndpointNotPublic b ctx
  loadRegistryChecked site yaml

/-- `_first_signing_secret`. -/
def firstSigningSecret (env : Environ) : Option String :=
  (parts ((env "WEBHOOK_SIGNING_SECRETS").getD "")).head?.map String.ofList

/-! ## What a service that started has -/

/-- The settings of a service that may start in prod. -/
structure Posture (b : Boot) (env : Environ) : Prop where
  hosts : allowedHosts b.lib env ≠ []
  any : flag b.lib env "WEBHOOK_ALLOW_ANY_HOST" = false
  /-- A comma is enough. -/
  secrets : strip ((env "WEBHOOK_SIGNING_SECRETS").getD "").toList ≠ []

/-- ComfyUI has a host, and none of its addresses is public. -/
def Hidden (b : Boot) (env : Environ) : Prop :=
  ∃ parsed host port infos,
    b.lib.urlparse ((env "COMFYUI_URL").getD "http://comfyui:8188") = .ok parsed ∧
    parsed.hostname = some host ∧ host ≠ "" ∧ b.getaddrinfo host port = .ok infos ∧ infos ≠ [] ∧
    ∀ address ∈ infos, b.isGlobal address = false

section Checks

variable {b : Boot} {env : Environ} {site : Site} {yaml : YamlFile} {models : List ModelConfig}

theorem allowedHosts_eq (lib : Lib) (env : Environ) : allowedHosts lib env =
    (parts ((env "WEBHOOK_ALLOWED_HOSTS").getD "")).map
      fun h => String.ofList (lib.str.lower h) := by
  unfold allowedHosts parts
  generalize (((env "WEBHOOK_ALLOWED_HOSTS").getD "").toList.splitOn ',').map strip = names
  induction names with
  | nil => rfl
  | cons h rest ih =>
    by_cases hh : h = []
    · simp [hh, ih]
    · simp [hh, ih]

theorem notGlobal_of_check {infos : List String} (h : checkAddresses b infos = .ok ()) :
    ∀ address ∈ infos, b.isGlobal address = false := by
  induction infos with
  | nil => exact fun address hmem => absurd hmem List.not_mem_nil
  | cons first rest ih =>
    unfold checkAddresses at h
    split at h
    · cases h
    obtain ⟨_, hfirst, hrest⟩ := bind_ok h
    intro address hmem
    rcases List.mem_cons.mp hmem with rfl | hmem
    · simpa using refuseIf_ok hfirst
    · exact ih hrest address hmem

theorem hidden_of_check
    (h : checkComfyuiEndpointNotPublic b (buildContextFromEnv b env) = .ok ()) : Hidden b env := by
  unfold checkComfyuiEndpointNotPublic at h
  split at h
  · cases h
  rename_i parsed hparsed
  obtain ⟨_, hhost, h⟩ := bind_ok h
  have hhost := refuseIf_ok hhost
  split at h
  · cases h
  rename_i port _
  split at h
  · cases h
  rename_i infos hinfos
  obtain ⟨_, hempty, haddresses⟩ := bind_ok h
  rcases hname : parsed.hostname with _ | host
  · rw [hname] at hhost
    exact absurd rfl hhost
  rw [hname, Option.getD_some] at hhost hinfos
  exact ⟨parsed, host, port, infos, hparsed, hname, hhost, hinfos, refuseIf_ok hempty,
    notGlobal_of_check haddresses⟩

theorem posture_of_check (hprod : imagegenEnv b.lib env = "prod")
    (h : checkProdWebhookPosture (buildContextFromEnv b env) = .ok ()) : Posture b env := by
  unfold checkProdWebhookPosture at h
  have hmode : ¬ (buildContextFromEnv b env).imagegenEnv ≠ "prod" := not_not.mpr hprod
  rw [if_neg hmode] at h
  obtain ⟨_, hhosts, h⟩ := bind_ok h
  obtain ⟨_, hany, hsecrets⟩ := bind_ok h
  refine ⟨?_, eq_false_of_ne_true (refuseIf_ok hany), refuseIf_ok hsecrets⟩
  rw [allowedHosts_eq, ne_eq, List.map_eq_nil_iff]
  exact refuseIf_ok hhosts

theorem started (hprod : imagegenEnv b.lib env = "prod")
    (h : runStartupChecks b (buildContextFromEnv b env) site yaml = .ok models) :
    Posture b env ∧ Hidden b env := by
  obtain ⟨_, hposture, h⟩ := bind_ok h
  obtain ⟨_, hcomfy, -⟩ := bind_ok h
  exact ⟨posture_of_check hprod hposture, hidden_of_check hcomfy⟩

end Checks

/-! ## Signatures -/

/-- The headers of the service, with the signature of the payload, come first, and no other
header takes one of their names. -/
def SignedBy (sign : Signer) (secret : String) (request : Request) : Prop :=
  ∃ id event deliveryId ts rest,
    request.headers =
      serviceHeaders id event deliveryId (sign ts request.payload secret) ts ++ rest ∧
    (∀ f ∈ rest, reservedHeader f.1 = false) ∧ request.followRedirects = false

theorem setHeader_after {base rest : List (String × String)} {k v : String}
    (hbase : ∀ f ∈ base, reservedHeader f.1 = true) (hk : reservedHeader k = false)
    (hrest : ∀ f ∈ rest, reservedHeader f.1 = false) :
    ∃ rest', setHeader (base ++ rest) k v = base ++ rest' ∧
      ∀ f ∈ rest', reservedHeader f.1 = false := by
  have hne : ∀ f ∈ base, f.1 ≠ k := by
    intro f hf heq
    rw [← heq, hbase f hf] at hk
    cases hk
  unfold setHeader
  split
  · refine ⟨rest.map fun h => if h.1 = k then (k, v) else h, ?_, fun f hf => ?_⟩
    · rw [List.map_append]
      congr 1
      exact List.map_congr_left (fun f hf => if_neg (hne f hf)) |>.trans (List.map_id' _)
    · obtain ⟨g, hg, rfl⟩ := List.mem_map.mp hf
      split
      · exact hk
      · exact hrest g hg
  · refine ⟨rest ++ [(k, v)], by rw [List.append_assoc], fun f hf => ?_⟩
    rcases List.mem_append.mp hf with hf | hf
    · exact hrest f hf
    · rw [List.mem_singleton.mp hf]
      exact hk

/-- Whatever the caller wants sent, the headers of the service stay as they are. -/
theorem buildHeaders_after (job : job_store.Job) (event deliveryId signature : String) (ts : Nat) :
    ∃ rest, buildHeaders job event deliveryId signature ts =
        serviceHeaders job.id event deliveryId signature ts ++ rest ∧
      ∀ f ∈ rest, reservedHeader f.1 = false := by
  have hbase := reserved_serviceHeaders job.id event deliveryId signature ts
  have hfold : ∀ (headers rest : List (String × String)),
      (∀ f ∈ rest, reservedHeader f.1 = false) →
      ∃ rest', headers.foldl (fun sofar h =>
          if reservedHeader h.1 then sofar else setHeader sofar h.1 h.2)
          (serviceHeaders job.id event deliveryId signature ts ++ rest) =
            serviceHeaders job.id event deliveryId signature ts ++ rest' ∧
        ∀ f ∈ rest', reservedHeader f.1 = false := by
    intro headers
    induction headers with
    | nil => exact fun rest hrest => ⟨rest, rfl, hrest⟩
    | cons h headers ih =>
      intro rest hrest
      rw [List.foldl_cons]
      by_cases hreserved : reservedHeader h.1 = true
      · rw [if_pos hreserved]
        exact ih rest hrest
      · obtain ⟨rest', heq, hrest'⟩ := setHeader_after (v := h.2) hbase
          (Bool.not_eq_true _ ▸ hreserved) hrest
        rw [if_neg hreserved, heq]
        exact ih rest' hrest'
  have hall := hfold (job.webhookHeaders.getD []) [] (fun f hf => absurd hf List.not_mem_nil)
  rw [List.append_nil] at hall
  exact hall

/-- What the dispatcher may hear when it asks for the secret. -/
def Answers (secret : Option String) : (op : Op) → Except Exc op.Ans → Prop
  | .firstSigningSecret, .ok s => s = secret
  | _, _ => True

/-- A POST is signed with the secret, and there is one. -/
def PostsSigned (sign : Signer) (secret : Option String) (op : Op) : Prop :=
  ∀ request, op = .post request → ∃ s, secret = some s ∧ SignedBy sign s request

section Programs

variable {sign : Signer} {secret : Option String} {job : job_store.Job}

theorem signed_of_quiet {α : Type} {p : Prog α} (h : p.All Quiet) :
    p.All (PostsSigned sign secret) := by
  refine h.mono fun op hop request hpost => ?_
  subst hpost
  -- a POST is ready after a check only
  cases (hop none).1

theorem signed_buildRequest (url s : String) :
    (buildRequest sign job url s).Gives (SignedBy sign s) := by
  unfold buildRequest
  refine Co.gives_bind _ fun created => ?_
  refine Co.gives_bind _ fun ts => ?_
  refine Co.gives_bind _ fun deliveryId => ?_
  obtain ⟨rest, hrest, hfree⟩ := buildHeaders_after job (buildPayload job created).1 deliveryId
    (sign ts (buildPayload job created).2 s) ts
  exact ⟨job.id, _, deliveryId, ts, rest, hrest, hfree, rfl⟩

theorem signed_attemptDelivery (url : String) (n : Nat) :
    (attemptDelivery sign job url n).AllOn (Answers secret) (PostsSigned sign secret) := by
  have hother : ∀ op : Op, (∀ request, op ≠ .post request) → PostsSigned sign secret op :=
    fun op hop request hpost => absurd hpost (hop request)
  unfold attemptDelivery
  refine Co.allOn_call_bind (hother _ fun _ => by simp) fun attempt _ => ?_
  refine Co.allOn_call_bind (hother _ fun _ => by simp) fun _ _ => ?_
  refine Co.allOn_call_bind (hother _ fun _ => by simp) fun allowed _ => ?_
  split
  · refine Co.allOn_call_bind (hother _ fun _ => by simp) fun s hs => ?_
    obtain rfl : s = secret := hs
    cases s with
    | none => exact (signed_of_quiet (quiet_recordFailure _ _)).allOn
    | some s =>
      apply Co.All.allOn
      refine Co.all_bind_gives (signed_of_quiet (quiet_buildRequest sign job url s))
        (signed_buildRequest url s) fun request hsigned => ?_
      refine Co.all_bind ?_ fun outcome => signed_of_quiet (quiet_recordOutcome _ _ _)
      unfold tryPost
      refine Co.all_tryCatch ?_ fun e => ?_
      · refine Co.all_bind ((Co.all_call (Op.post request)).mpr ?_) fun _ => Co.all_pure _
        intro request' hpost
        cases hpost
        exact ⟨s, rfl, hsigned⟩
      · cases e <;> trivial
  · exact (signed_of_quiet (quiet_recordFailure _ _)).allOn

theorem signed_processOne :
    (processOne sign job).AllOn (Answers secret) (PostsSigned sign secret) := by
  have hother : ∀ op : Op, (∀ request, op ≠ .post request) → PostsSigned sign secret op :=
    fun op hop request hpost => absurd hpost (hop request)
  unfold processOne
  split
  · trivial
  split
  · exact ((Co.all_call _).mpr (hother _ fun _ => by simp)).allOn
  refine Co.allOn_call_bind (hother _ fun _ => by simp) fun latest _ => ?_
  refine Co.allOn_call_bind (hother _ fun _ => by simp) fun now _ => ?_
  refine Co.allOn_bind (signed_of_quiet (quiet_settleLatest now latest)).allOn fun go => ?_
  split
  · exact signed_attemptDelivery _ _
  · trivial

theorem signed_inFlight {p p' : Prog Unit}
    (h : p.AllOn (Answers secret) (PostsSigned sign secret)) (hp : inFlight p = some p') :
    p'.AllOn (Answers secret) (PostsSigned sign secret) := by
  cases p with
  | ret a => cases hp
  | raise e => cases hp
  | await op k =>
    cases hp
    exact h

end Programs

/-! ## Runs -/

/-- The step reads the environment of the process. -/
def Reads (env : Environ) : Label → Prop
  | .act (.dispatch inp) env' _ => env' = env ∧ inp.secret = firstSigningSecret env
  | _ => True

structure Inv (env : Environ) (sign : Signer) (s : State) : Prop where
  program : ∀ p, s.cell.dispatch = some p →
    p.AllOn (Answers (firstSigningSecret env)) (PostsSigned sign (firstSigningSecret env))
  check : ∀ check, s.check = some check → check.env = env
  connections : ∀ conn ∈ s.connections,
    (∀ check, conn.check = some check → check.env = env) ∧ firstSigningSecret env ≠ none

section Steps

variable {w : World} {env : Environ} {sign : Signer} {s s' : State}

/-- One operation of the pass. -/
theorem program_reads {inp : Input} {cell : Cell} (h : Inv env sign s)
    (hsecret : inp.secret = firstSigningSecret env)
    (hcell : delivery.next sign s.cell (.dispatch inp) = some cell) :
    ∀ p, cell.dispatch = some p →
      p.AllOn (Answers (firstSigningSecret env)) (PostsSigned sign (firstSigningSecret env)) := by
  intro p hp
  obtain ⟨op, k, hdispatch, hnext⟩ := dispatch_next hcell
  rw [hnext] at hp
  refine signed_inFlight ((h.program _ hdispatch).2 _ ?_) hp
  cases op with
  | firstSigningSecret => exact hsecret
  | _ => trivial

theorem inv_reads_dispatch {inp : Input} {pick : Nat} (h : Inv env sign s)
    (hsecret : inp.secret = firstSigningSecret env)
    (hnext : next w sign s (.act (.dispatch inp) env pick) = some s') : Inv env sign s' := by
  simp only [next] at hnext
  split at hnext
  · obtain ⟨cell, hcell, rfl⟩ := Option.map_eq_some_iff.mp hnext
    refine ⟨program_reads h ?_ hcell, fun check hcheck => ?_, h.connections⟩
    · exact hsecret
    · cases hcheck
      rfl
  · rename_i request hop
    split at hnext
    · obtain ⟨cell, hcell, rfl⟩ := Option.map_eq_some_iff.mp hnext
      exact ⟨program_reads h (by exact hsecret) hcell, h.check, h.connections⟩
    · obtain ⟨cell, hcell, rfl⟩ := Option.map_eq_some_iff.mp hnext
      refine ⟨program_reads h hsecret hcell, h.check, fun conn hconn => ?_⟩
      rcases List.mem_append.mp hconn with hconn | hconn
      · exact h.connections conn hconn
      · rw [List.mem_singleton.mp hconn]
        refine ⟨h.check, ?_⟩
        obtain ⟨op, k, hdispatch, -⟩ := dispatch_next hcell
        rw [pendingOp_eq hdispatch, Option.some.injEq] at hop
        obtain ⟨t, ht, -⟩ := (h.program _ hdispatch).1 request hop
        rw [ht]
        exact Option.some_ne_none t
  · obtain ⟨cell, hcell, rfl⟩ := Option.map_eq_some_iff.mp hnext
    exact ⟨program_reads h hsecret hcell, h.check, h.connections⟩

theorem inv_reads {l : Label} (h : Inv env sign s) (hreads : Reads env l)
    (hnext : next w sign s l = some s') : Inv env sign s' := by
  have hnone : ∀ check : Check, (none : Option Check) = some check → check.env = env :=
    fun check hcheck => by cases hcheck
  cases l with
  | crash =>
    cases hnext
    exact ⟨fun p hp => (by cases hp), hnone, h.connections⟩
  | act a env' pick =>
    cases a with
    | dispatch inp =>
      obtain ⟨rfl, hsecret⟩ := hreads
      exact inv_reads_dispatch h hsecret hnext
    | tick =>
      obtain ⟨cell, hcell, rfl⟩ := Option.map_eq_some_iff.mp hnext
      refine ⟨fun p hp => ?_, hnone, h.connections⟩
      simp only [delivery.next, Option.ite_none_right_eq_some, Option.some.injEq] at hcell
      obtain ⟨-, rfl⟩ := hcell
      exact signed_inFlight signed_processOne hp
    | move m =>
      obtain ⟨cell, hcell, rfl⟩ := Option.map_eq_some_iff.mp hnext
      have hdispatch : cell.dispatch = s.cell.dispatch := (grows_move hcell).dispatch
      exact ⟨fun p hp => h.program p (hdispatch ▸ hp), h.check, h.connections⟩
    | dispatchRaises message =>
      obtain ⟨cell, hcell, rfl⟩ := Option.map_eq_some_iff.mp hnext
      simp only [delivery.next] at hcell
      split at hcell
      · rename_i op k hdispatch
        cases hcell
        refine ⟨fun p hp => signed_inFlight ((h.program _ hdispatch).2 _ ?_) hp, h.check,
          h.connections⟩
        cases op <;> trivial
      · cases hcell

end Steps

/-- In prod, where the checks have passed: every POST of every run goes over https to a host
of the list, which the check of its own attempt has seen to resolve to public addresses only,
and carries the signature of its payload under the first secret. Without one nothing is
sent. -/
theorem prod_posts_are_listed_and_signed {b : Boot} {env : Environ} {site : Site}
    {yaml : YamlFile} {models : List ModelConfig}
    (hstart : runStartupChecks b (buildContextFromEnv b env) site yaml = .ok models)
    (hprod : imagegenEnv b.lib env = "prod") {dns : Nat → Lookup} {sign : Signer} {c : Cell}
    {labels : List Label} {s : State} (hreads : ∀ l ∈ labels, Reads env l)
    (hrun : runs.exec (next ⟨b.lib, dns⟩ sign) (before c) labels = some s) :
    Posture b env ∧ Hidden b env ∧
    (∀ conn ∈ s.connections, conn.host ∈ allowedHosts b.lib env ∧
      (∃ parsed, b.lib.urlparse conn.url = .ok parsed ∧ parsed.scheme = "https") ∧
      ∃ check, conn.check = some check ∧ check.env = env ∧ check.Made ⟨b.lib, dns⟩ conn.url ∧
        hostResolvesPublic b.lib check.getaddrinfo conn.host = true) ∧
    (∀ request, pendingOp s.cell = some (.post request) →
      ∃ secret, firstSigningSecret env = some secret ∧ SignedBy sign secret request) ∧
    (firstSigningSecret env = none → s.connections = []) := by
  obtain ⟨hposture, hhidden⟩ := started hprod hstart
  have hstart' : Inv env sign (before c) :=
    ⟨fun p hp => (by cases hp), fun check hcheck => (by cases hcheck),
      fun conn hconn => absurd hconn List.not_mem_nil⟩
  have hinv : Inv env sign s := runs.invariant (fun _ _ _ h hok => inv_reads h hok) hstart'
    (runs.allSteps_of_forall labels (fun l hl _ => hreads l hl) _) hrun
  have hchecked : webhook_target.Inv ⟨b.lib, dns⟩ s := by
    refine runs.invariant_of_next (fun _ _ _ => inv_next) ?_ hrun
    exact ⟨⟨none, fun p hp => (by cases hp), fun url hurl => (by cases hurl)⟩,
      fun conn hconn => absurd hconn List.not_mem_nil⟩
  refine ⟨hposture, hhidden, fun conn hconn => ?_, fun request hpost => ?_, fun hnone => ?_⟩
  · obtain ⟨check, hcheck, hmade, hhost, -⟩ := hchecked.sound conn hconn
    have henv : check.env = env := (hinv.connections conn hconn).1 check hcheck
    have hmode : ¬ DevMode b.lib check.env := by
      rintro ⟨hdev, -⟩
      rw [henv, hprod] at hdev
      exact absurd hdev (by decide)
    obtain ⟨parsed, hparsed, hscheme, hlisted, hpublic⟩ := allows_spec hmade.allows hmode
    rw [hmade.url_eq] at hparsed
    have hname : lower b.lib (parsed.hostname.getD "") = conn.host := by
      unfold hostOf at hhost
      rw [hparsed] at hhost
      exact Option.some.inj hhost
    rw [hname] at hlisted hpublic
    rw [henv] at hlisted hscheme
    exact ⟨hlisted, ⟨parsed, hparsed, hscheme hprod⟩, check, hcheck, henv, hmade, hpublic⟩
  · unfold pendingOp at hpost
    split at hpost
    · rename_i op k hdispatch
      exact (hinv.program _ hdispatch).1 request (Option.some.inj hpost)
    · cases hpost
  · refine List.eq_nil_iff_forall_not_mem.mpr fun conn hconn => ?_
    exact (hinv.connections conn hconn).2 hnone

/-! ## A service in prod -/

def prodEnv : Environ := fun name =>
  if name = "IMAGEGEN_ENV" then some "prod"
  else if name = "WEBHOOK_ALLOWED_HOSTS" then some "hooks.test"
  else if name = "WEBHOOK_SIGNING_SECRETS" then some " ,s"
  else none

def composed : Boot where
  lib := { smallLib with
    urlparse := fun url =>
      if url = "http://comfyui:8188" then .ok ⟨"http", some "comfyui"⟩
      else smallLib.urlparse url
    ipAddress := fun address =>
      if address = "172.18.0.2" then .ok ⟨true, false, false, false, false, false⟩
      else smallLib.ipAddress address }
  port _ := .ok (some 8188)
  isGlobal _ := false
  getaddrinfo _ _ := .ok ["172.18.0.2"]
  repr s := s

/-- A pass up to its POST. -/
def prodAttempt : List Label :=
  .act .tick prodEnv 0 :: List.replicate 10 (.act (.dispatch (delivery.smallInput 5 200)) prodEnv 0)

theorem a_composed_service_posts_to_its_hook : ∃ s,
    runs.exec (next ⟨composed.lib, fun _ _ => .ok ["93.184.216.34"]⟩ delivery.smallSign)
      (before completedCell) prodAttempt = some s ∧
    s.connections.map (·.url) = ["https://hooks.test/done"] ∧
    ∀ conn ∈ s.connections, conn.host ∈ allowedHosts composed.lib prodEnv ∧
      ∃ check, conn.check = some check ∧
        hostResolvesPublic composed.lib check.getaddrinfo conn.host = true := by
  have hshown : (runs.exec (next ⟨composed.lib, fun _ _ => .ok ["93.184.216.34"]⟩
      delivery.smallSign) (before completedCell) prodAttempt).map
      (fun s => s.connections.map (·.url)) = some ["https://hooks.test/done"] := by
    decide +kernel
  obtain ⟨s, hs, hurls⟩ := Option.map_eq_some_iff.mp hshown
  have hstart : ∃ models, runStartupChecks composed (buildContextFromEnv composed prodEnv)
      preparability.ltxSite (.entries [preparability.ltxEntry]) = .ok models := by
    have hposture : checkProdWebhookPosture (buildContextFromEnv composed prodEnv) = .ok () := rfl
    have hcomfy : checkComfyuiEndpointNotPublic composed
        (buildContextFromEnv composed prodEnv) = .ok () := rfl
    unfold runStartupChecks
    rw [hposture, hcomfy, loadRegistryChecked, preparability.ltx_loaded]
    exact ⟨_, rfl⟩
  obtain ⟨models, hmodels⟩ := hstart
  have hreads : ∀ l ∈ prodAttempt, Reads prodEnv l := by
    intro l hl
    rcases List.mem_cons.mp hl with rfl | hl
    · trivial
    · rw [List.eq_of_mem_replicate hl]
      exact ⟨rfl, by decide +kernel⟩
  refine ⟨s, hs, hurls, fun conn hconn => ?_⟩
  obtain ⟨-, -, hposts, -⟩ :=
    prod_posts_are_listed_and_signed hmodels (by decide +kernel) hreads hs
  obtain ⟨hlisted, -, check, hcheck, -, -, hpublic⟩ := hposts conn hconn
  exact ⟨hlisted, check, hcheck, hpublic⟩

-- The check of the secrets lets a comma pass, under which no attempt is ever sent.
example : (checkProdWebhookPosture ⟨"prod", "", "hooks.test", false, ","⟩).isOk = true ∧
    firstSigningSecret (fun _ => some ",") = none := by
  decide +kernel

end image_gen.startup_posture

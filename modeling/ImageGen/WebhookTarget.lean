-- Where a webhook POST goes. The dispatcher checks the scheme, the host and the
-- addresses that the host resolves to, and then hands the URL to an HTTP client
-- that resolves the host again.
import ImageGen.Delivery
import ImageGen.Graph
import ImageGen.PyStr

namespace image_gen.webhook_target

open image_gen.coroutine image_gen.runs image_gen.job_store image_gen.dispatcher image_gen.delivery
  image_gen.py_str

/-! ## The check -/

/-- `os.environ`. -/
abbrev Environ := String → Option String

/-- The properties of an `ipaddress` object that the check reads. -/
structure IpAddress where
  isPrivate : Bool
  isLoopback : Bool
  isLinkLocal : Bool
  isMulticast : Bool
  isReserved : Bool
  isUnspecified : Bool

/-- What the check calls in the standard library. -/
structure Lib where
  str : PyStr
  /-- An error is a `ValueError`. -/
  urlparse : String → Except String ParseResult
  ipAddress : String → Except String IpAddress

/-- `getaddrinfo`: the addresses, or an `OSError`. -/
abbrev Lookup := String → Except String (List String)

section Check

variable (lib : Lib)

def lower (s : String) : String := String.ofList (lib.str.lower s.toList)

def imagegenEnv (env : Environ) : String := lower lib ((env "IMAGEGEN_ENV").getD "dev")

def flag (env : Environ) (name : String) : Bool :=
  decide (lower lib ((env name).getD "false") = "true")

def allowedHosts (env : Environ) : List String :=
  ((((env "WEBHOOK_ALLOWED_HOSTS").getD "").toList.splitOn ',').map graph.strip).filterMap
    fun h => if h = [] then none else some (String.ofList (lib.str.lower h))

/-- The host that is looked up. -/
def hostOf (url : String) : Option String :=
  match lib.urlparse url with
  | .ok parsed => some (lower lib (parsed.hostname.getD ""))
  | .error _ => none

/-- None of the ranges that the check refuses. -/
def isPublic (address : String) : Bool :=
  match lib.ipAddress address with
  | .error _ => false
  | .ok ip => !(ip.isPrivate || ip.isLoopback || ip.isLinkLocal || ip.isMulticast ||
      ip.isReserved || ip.isUnspecified)

/-- `_host_resolves_public`. -/
def hostResolvesPublic (getaddrinfo : Lookup) (host : String) : Bool :=
  match getaddrinfo host with
  | .error _ => false
  | .ok [] => false
  | .ok infos => infos.all (isPublic lib)

/-- `_toctou_allows`. -/
def toctouAllows (env : Environ) (getaddrinfo : Lookup) (url : String) : Except Exc Bool :=
  match lib.urlparse url with
  | .error message => .error (.other message)
  | .ok parsed =>
    let imagegenEnv := imagegenEnv lib env
    let host := lower lib (parsed.hostname.getD "")
    if imagegenEnv = "prod" ∧ parsed.scheme ≠ "https" then .ok false
    else if imagegenEnv ≠ "prod" ∧ parsed.scheme ∉ ["http", "https"] then .ok false
    else if flag lib env "WEBHOOK_ALLOW_ANY_HOST" ∧ imagegenEnv = "dev" then .ok true
    else if allowedHosts lib env = [] then .ok false
    else if host ∉ allowedHosts lib env then .ok false
    else if flag lib env "WEBHOOK_ALLOW_PRIVATE" ∧ imagegenEnv = "dev" then .ok true
    else if host = "" then .ok false
    else .ok (hostResolvesPublic lib getaddrinfo host)

end Check

/-! ## The network -/

/-- The check of an attempt: what it read, and what the resolver answered. -/
structure Check where
  env : Environ
  url : String
  getaddrinfo : Lookup

/-- A connection of a POST. -/
structure Connection where
  /-- The check of the same attempt. -/
  check : Option Check
  url : String
  host : String
  address : String

structure World where
  lib : Lib
  /-- The answers of the resolver, lookup by lookup. -/
  dns : Nat → Lookup

structure State where
  cell : Cell
  lookups : Nat
  check : Option Check
  connections : List Connection

inductive Label
  /-- A step of the job, the environment at that time, and which address the HTTP
  client takes. -/
  | act (a : Act) (env : Environ) (pick : Nat)
  | crash

/-- The HTTP client looks the host up and takes one of the addresses. -/
def connect (w : World) (lookups pick : Nat) (url : String) : Option (String × String) := do
  let host ← hostOf w.lib url
  let addresses ← (w.dns lookups host).toOption
  let address ← addresses[pick]?
  return (host, address)

/-- The operation that the dispatcher waits for. -/
def pendingOp (c : Cell) : Option Op :=
  match c.dispatch with
  | some (.await op _) => some op
  | _ => none

def next (w : World) (sign : Signer) (s : State) : Label → Option State
  | .crash => some { s with cell := crash s.cell, check := none }
  | .act (.dispatch inp) env pick =>
    match pendingOp s.cell with
    | some (.toctouAllows url) =>
      let allows := toctouAllows w.lib env (w.dns s.lookups) url
      (delivery.next sign s.cell (.dispatch { inp with allows := allows })).map fun cell =>
        { s with cell := cell, lookups := s.lookups + 1, check := some ⟨env, url, w.dns s.lookups⟩ }
    | some (.post request) =>
      match connect w s.lookups pick request.url with
      | none =>
        (delivery.next sign s.cell (.dispatch { inp with
          response := .error (.http "connect failed") })).map fun cell =>
            { s with cell := cell, lookups := s.lookups + 1 }
      | some (host, address) =>
        (delivery.next sign s.cell (.dispatch inp)).map fun cell => { s with
          cell := cell
          lookups := s.lookups + 1
          connections := s.connections ++ [⟨s.check, request.url, host, address⟩] }
    | _ => (delivery.next sign s.cell (.dispatch inp)).map fun cell => { s with cell := cell }
  | .act .tick _ _ =>
    (delivery.next sign s.cell .tick).map fun cell => { s with cell := cell, check := none }
  | .act a _ _ => (delivery.next sign s.cell a).map fun cell => { s with cell := cell }

/-- A job that no pass has begun on. -/
def before (c : Cell) : State := ⟨{ c with dispatch := none }, 0, none, []⟩

/-! ## What the check establishes -/

/-- One of the two modes of `IMAGEGEN_ENV=dev`. -/
def DevMode (lib : Lib) (env : Environ) : Prop :=
  imagegenEnv lib env = "dev" ∧ (flag lib env "WEBHOOK_ALLOW_ANY_HOST" = true ∨
    flag lib env "WEBHOOK_ALLOW_PRIVATE" = true)

/-- The host is on the list, and prod has https. -/
def Listed (lib : Lib) (check : Check) (conn : Connection) : Prop :=
  conn.host ∈ allowedHosts lib check.env ∧
    (imagegenEnv lib check.env = "prod" →
      ∃ parsed, lib.urlparse conn.url = .ok parsed ∧ parsed.scheme = "https")

/-- The address is one of those that the check saw. -/
def Checked (check : Check) (conn : Connection) : Prop :=
  ∃ addresses, check.getaddrinfo conn.host = .ok addresses ∧ conn.address ∈ addresses

/-- The connection goes to an address that was checked to be public. -/
def Pinned (lib : Lib) (check : Check) (conn : Connection) : Prop :=
  Checked check conn ∧ isPublic lib conn.address = true

def Check.Allows (lib : Lib) (check : Check) : Prop :=
  toctouAllows lib check.env check.getaddrinfo check.url = .ok true

theorem allows_spec {lib : Lib} {check : Check} (h : check.Allows lib)
    (hmode : ¬ DevMode lib check.env) : ∃ parsed, lib.urlparse check.url = .ok parsed ∧
      (imagegenEnv lib check.env = "prod" → parsed.scheme = "https") ∧
      lower lib (parsed.hostname.getD "") ∈ allowedHosts lib check.env ∧
      hostResolvesPublic lib check.getaddrinfo (lower lib (parsed.hostname.getD "")) = true := by
  unfold Check.Allows toctouAllows at h
  rcases hparse : lib.urlparse check.url with message | parsed <;> rw [hparse] at h
  · cases h
  refine ⟨parsed, rfl, ?_⟩
  dsimp only at h
  unfold DevMode at hmode
  split at h
  · cases h
  · rename_i hscheme
    split at h
    · cases h
    split at h
    · rename_i hany
      exact absurd ⟨hany.2, Or.inl hany.1⟩ hmode
    split at h
    · cases h
    split at h
    · cases h
    rename_i hlisted
    split at h
    · rename_i hprivate
      exact absurd ⟨hprivate.2, Or.inr hprivate.1⟩ hmode
    split at h
    · cases h
    refine ⟨fun hprod => ?_, by simpa using hlisted, by simpa using h⟩
    by_contra hne
    exact hscheme ⟨hprod, hne⟩

theorem isPublic_of_resolves {lib : Lib} {getaddrinfo : Lookup} {host address : String}
    {addresses : List String} (h : hostResolvesPublic lib getaddrinfo host = true)
    (hlookup : getaddrinfo host = .ok addresses) (hmem : address ∈ addresses) :
    isPublic lib address = true := by
  unfold hostResolvesPublic at h
  rw [hlookup] at h
  split at h
  · cases h
  · cases h
  · rename_i infos _ heq
    rw [Except.ok.injEq] at heq
    subst heq
    exact List.all_eq_true.mp h address hmem

/-! ## No POST without its check -/

/-- The URL whose check was the last to succeed, after one more operation. -/
def passed (u : Option String) : (op : Op) → Except Exc op.Ans → Option String
  | .toctouAllows url, .ok true => some url
  | .toctouAllows _, _ => none
  | _, _ => u

/-- A POST goes to the URL that has passed. -/
def Ready (u : Option String) : Op → Prop
  | .post request => u = some request.url
  | _ => True

/-- Every POST that the program can reach comes after the check of its URL. -/
def PostsChecked {α : Type} : Option String → Prog α → Prop
  | _, .ret _ => True
  | _, .raise _ => True
  | u, .await op k => Ready u op ∧ ∀ r, PostsChecked (passed u op r) (k r)

/-- Neither a check nor a POST. -/
def Quiet (op : Op) : Prop := ∀ u, Ready u op ∧ ∀ r, passed u op r = u

section Programs

variable {α β : Type} {u : Option String}

theorem postsChecked_of_quiet {p : Prog α} (h : p.All Quiet) : PostsChecked u p := by
  induction p with
  | ret a => trivial
  | raise e => trivial
  | await op k ih =>
    obtain ⟨hready, hpassed⟩ := h.1 u
    refine ⟨hready, fun r => ?_⟩
    rw [hpassed r]
    exact ih r (h.2 r)

theorem postsChecked_bind {A : α → Prop} {p : Prog α} {f : α → Prog β} (hp : p.All Quiet)
    (hA : p.Gives A) (hf : ∀ a, A a → PostsChecked u (f a)) : PostsChecked u (p >>= f) := by
  change PostsChecked u (p.bind f)
  induction p with
  | ret a => exact hf a hA
  | raise e => trivial
  | await op k ih =>
    obtain ⟨hready, hpassed⟩ := hp.1 u
    refine ⟨hready, fun r => ?_⟩
    rw [hpassed r]
    exact ih r (hp.2 r) (hA r)

theorem quiet_ask {op : Op} (h : Quiet op) : (ask op).All Quiet := (Co.all_call op).mpr h

theorem gives_true (p : Prog α) : p.Gives fun _ => True := by
  induction p with
  | ret a => trivial
  | raise e => trivial
  | await op k ih => exact ih

theorem postsChecked_ask (op : Op) {f : op.Ans → Prog β} (h : Quiet op)
    (hf : ∀ a, PostsChecked u (f a)) : PostsChecked u (ask op >>= f) :=
  postsChecked_bind (quiet_ask h) (gives_true _) fun a _ => hf a

theorem quiet_recordFailure (attemptId : Nat) (c : Completion) :
    (recordFailure attemptId c).All Quiet := by
  refine Co.all_bind (quiet_ask ?_) fun _ => quiet_ask ?_ <;> exact fun u => ⟨trivial, fun _ => rfl⟩

theorem quiet_recordOutcome (attempt : Attempt) (n : Nat) (outcome : Except String Response) :
    (recordOutcome attempt n outcome).All Quiet := by
  have hnow : Quiet .now := fun u => ⟨trivial, fun _ => rfl⟩
  cases outcome with
  | error message => exact Co.all_bind (quiet_ask hnow) fun _ => quiet_recordFailure _ _
  | ok resp =>
    unfold recordOutcome
    dsimp only
    split
    · refine Co.all_bind (quiet_ask ?_) fun _ => quiet_ask ?_ <;>
        exact fun u => ⟨trivial, fun _ => rfl⟩
    · exact Co.all_bind (quiet_ask hnow) fun _ => quiet_recordFailure _ _

theorem quiet_buildRequest (sign : Signer) (job : Job) (url secret : String) :
    (buildRequest sign job url secret).All Quiet := by
  have hnow : Quiet .now := fun u => ⟨trivial, fun _ => rfl⟩
  have huuid : Quiet .uuid4 := fun u => ⟨trivial, fun _ => rfl⟩
  unfold buildRequest readNow uuid4
  refine Co.all_bind (quiet_ask hnow) fun created => ?_
  refine Co.all_bind (quiet_ask hnow) fun ts => ?_
  exact Co.all_bind (quiet_ask huuid) fun _ => Co.all_pure _

theorem buildRequest_url (sign : Signer) (job : Job) (url secret : String) :
    (buildRequest sign job url secret).Gives fun request => request.url = url := by
  unfold buildRequest
  refine Co.gives_bind _ fun created => ?_
  refine Co.gives_bind _ fun ts => ?_
  exact Co.gives_bind _ fun _ => rfl

theorem postsChecked_tryPost {request : Request} {f : Except String Response → Prog β}
    (hf : ∀ outcome, PostsChecked (some request.url) (f outcome)) :
    PostsChecked (some request.url) (tryPost request >>= f) := by
  refine ⟨rfl, fun r => ?_⟩
  rcases r with (message | message | _) | resp
  · exact hf (.error message)
  · trivial
  · trivial
  · exact hf (.ok resp)

theorem postsChecked_attemptDelivery (sign : Signer) (job : Job) (url : String) (n : Nat) :
    PostsChecked u (attemptDelivery sign job url n) := by
  unfold attemptDelivery
  refine postsChecked_ask _ (fun u => ⟨trivial, fun _ => rfl⟩) fun attempt => ?_
  refine postsChecked_ask _ (fun u => ⟨trivial, fun _ => rfl⟩) fun _ => ?_
  refine ⟨trivial, fun r => ?_⟩
  rcases r with e | allowed | _
  · trivial
  · exact postsChecked_of_quiet (quiet_recordFailure _ _)
  -- the check has passed
  refine postsChecked_ask .firstSigningSecret (fun u => ⟨trivial, fun _ => rfl⟩) ?_
  intro secret
  cases secret with
  | none => exact postsChecked_of_quiet (quiet_recordFailure _ _)
  | some secret =>
    refine postsChecked_bind (quiet_buildRequest sign job url secret)
      (buildRequest_url sign job url secret) fun request hurl => ?_
    subst hurl
    exact postsChecked_tryPost fun outcome =>
      postsChecked_of_quiet (quiet_recordOutcome attempt n outcome)

theorem quiet_settleLatest (now : Nat) (latest : Option Attempt) :
    (settleLatest now latest).All Quiet := by
  unfold settleLatest
  split
  · exact Co.all_pure _
  · rename_i a
    rcases a.status <;> dsimp only
    all_goals first
      | refine Co.all_bind (quiet_ask ?_) fun _ => Co.all_pure _
        exact fun u => ⟨trivial, fun _ => rfl⟩
      | split
        · first
          | exact Co.all_pure _
          | refine Co.all_bind (quiet_ask ?_) fun _ => Co.all_pure _
            exact fun u => ⟨trivial, fun _ => rfl⟩
        · exact Co.all_pure _

theorem postsChecked_processOne (sign : Signer) (job : Job) :
    PostsChecked u (processOne sign job) := by
  unfold processOne
  split
  · trivial
  · split
    · exact postsChecked_of_quiet (quiet_ask fun u => ⟨trivial, fun _ => rfl⟩)
    · refine postsChecked_ask _ (fun u => ⟨trivial, fun _ => rfl⟩) fun latest => ?_
      refine postsChecked_ask .now (fun u => ⟨trivial, fun _ => rfl⟩) fun now => ?_
      refine postsChecked_bind (quiet_settleLatest now latest) (gives_true _) fun go _ => ?_
      split
      · exact postsChecked_attemptDelivery sign job _ _
      · trivial

theorem postsChecked_inFlight {p p' : Prog Unit} (h : PostsChecked u p)
    (hp : inFlight p = some p') : PostsChecked u p' := by
  cases p with
  | ret a => cases hp
  | raise e => cases hp
  | await op k =>
    cases hp
    exact h

end Programs

/-! ## Runs -/

/-- The check of the URL has allowed it, on an answer of the resolver. -/
structure Check.Made (w : World) (check : Check) (url : String) : Prop where
  url_eq : check.url = url
  allows : check.Allows w.lib
  lookup : ∃ n, check.getaddrinfo = w.dns n

/-- A connection with the check that allows it. -/
def Sound (w : World) (conn : Connection) : Prop :=
  ∃ check, conn.check = some check ∧ check.Made w conn.url ∧
    hostOf w.lib conn.url = some conn.host ∧
    ∃ n addresses, w.dns n conn.host = .ok addresses ∧ conn.address ∈ addresses

structure Inv (w : World) (s : State) : Prop where
  program : ∃ u, (∀ p, s.cell.dispatch = some p → PostsChecked u p) ∧
    ∀ url, u = some url → ∃ check, s.check = some check ∧ check.Made w url
  sound : ∀ conn ∈ s.connections, Sound w conn

section Steps

variable {w : World} {sign : Signer} {s s' : State}

/-- A step of the pass. -/
theorem dispatch_next {inp : Input} {c c' : Cell}
    (h : delivery.next sign c (.dispatch inp) = some c') :
    ∃ op k, c.dispatch = some (.await op k) ∧
      c'.dispatch = inFlight (k (dispatcher.exec inp op c.rows).1) := by
  simp only [delivery.next] at h
  split at h
  · rename_i op k hdispatch
    simp only [Option.ite_none_right_eq_some, Option.some.injEq] at h
    obtain ⟨-, rfl⟩ := h
    exact ⟨op, k, hdispatch, rfl⟩
  · cases h

theorem pendingOp_eq {c : Cell} {op : Op} {k : Except Exc op.Ans → Prog Unit}
    (h : c.dispatch = some (.await op k)) : pendingOp c = some op := by
  unfold pendingOp
  rw [h]

theorem connect_host {lookups pick : Nat} {url host address : String}
    (h : connect w lookups pick url = some (host, address)) :
    hostOf w.lib url = some host ∧ ∃ addresses, w.dns lookups host = .ok addresses ∧
      address ∈ addresses := by
  unfold connect at h
  simp only [Option.bind_eq_bind, Option.bind_eq_some_iff] at h
  obtain ⟨host', hhost, addresses, haddresses, address', haddress, heq⟩ := h
  cases heq
  refine ⟨hhost, addresses, ?_, List.mem_of_getElem? haddress⟩
  rcases hdns : w.dns lookups host with e | list <;> rw [hdns] at haddresses <;> cases haddresses
  rfl

/-- An operation that is no check leaves what has passed. -/
theorem program_next {inp : Input} {cell : Cell} (h : Inv w s)
    (hcell : delivery.next sign s.cell (.dispatch inp) = some cell)
    (hother : ∀ url, pendingOp s.cell ≠ some (.toctouAllows url)) :
    ∃ u, (∀ p, cell.dispatch = some p → PostsChecked u p) ∧
      ∀ url, u = some url → ∃ check, s.check = some check ∧ check.Made w url := by
  obtain ⟨u, hprogram, hcheck⟩ := h.program
  obtain ⟨op, k, hdispatch, hnext⟩ := dispatch_next hcell
  have hop := pendingOp_eq hdispatch
  obtain ⟨-, hk⟩ := hprogram _ hdispatch
  have hkept : ∀ r, passed u op r = u := by
    intro r
    cases op with
    | toctouAllows url => exact absurd hop (hother url)
    | _ => rfl
  refine ⟨u, fun p hp => ?_, hcheck⟩
  rw [hnext] at hp
  exact postsChecked_inFlight (hkept _ ▸ hk _) hp

theorem inv_dispatch {inp : Input} {env : Environ} {pick : Nat} (h : Inv w s)
    (hnext : next w sign s (.act (.dispatch inp) env pick) = some s') : Inv w s' := by
  simp only [next] at hnext
  split at hnext
  · rename_i url hop
    obtain ⟨cell, hcell, rfl⟩ := Option.map_eq_some_iff.mp hnext
    obtain ⟨u, hprogram, -⟩ := h.program
    obtain ⟨op, k, hdispatch, hrest⟩ := dispatch_next hcell
    rw [pendingOp_eq hdispatch, Option.some.injEq] at hop
    subst hop
    obtain ⟨-, hk⟩ := hprogram _ hdispatch
    refine ⟨⟨_, fun p hp => postsChecked_inFlight (hk _) (hrest ▸ hp), fun url' hurl' => ?_⟩,
      h.sound⟩
    refine ⟨_, rfl, ?_⟩
    dsimp only [dispatcher.exec] at hurl'
    generalize hallows : toctouAllows w.lib env (w.dns s.lookups) url = allows at hurl'
    rcases allows with e | _ | _ <;> cases hurl'
    exact ⟨rfl, hallows, s.lookups, rfl⟩
  · rename_i request hop
    have hother : ∀ url, pendingOp s.cell ≠ some (.toctouAllows url) := by
      intro url heq
      rw [hop] at heq
      cases heq
    split at hnext
    · obtain ⟨cell, hcell, rfl⟩ := Option.map_eq_some_iff.mp hnext
      have hprogram := program_next h hcell hother
      exact ⟨hprogram, h.sound⟩
    · rename_i host address hconnect
      obtain ⟨cell, hcell, rfl⟩ := Option.map_eq_some_iff.mp hnext
      have hprogram := program_next h hcell hother
      refine ⟨hprogram, fun conn hconn => ?_⟩
      rcases List.mem_append.mp hconn with hconn | hconn
      · exact h.sound conn hconn
      · rw [List.mem_singleton.mp hconn]
        obtain ⟨u, hprogram, hcheck⟩ := h.program
        obtain ⟨op, k, hdispatch, -⟩ := dispatch_next hcell
        rw [pendingOp_eq hdispatch, Option.some.injEq] at hop
        subst hop
        have hready : u = some request.url := (hprogram _ hdispatch).1
        obtain ⟨check, hcheck, hmade⟩ := hcheck _ hready
        obtain ⟨hhost, addresses, haddresses, hmem⟩ := connect_host hconnect
        exact ⟨check, hcheck, hmade, hhost, s.lookups, addresses, haddresses, hmem⟩
  · rename_i hnotcheck hnotpost
    obtain ⟨cell, hcell, rfl⟩ := Option.map_eq_some_iff.mp hnext
    have hprogram := program_next h hcell hnotcheck
    exact ⟨hprogram, h.sound⟩

theorem inv_next {l : Label} (h : Inv w s) (hnext : next w sign s l = some s') : Inv w s' := by
  obtain ⟨⟨u, hprogram, hcheck⟩, hsound⟩ := h
  have hnone : ∀ url, (none : Option String) = some url → ∃ check, s'.check = some check ∧
      check.Made w url := fun url hurl => by cases hurl
  cases l with
  | crash =>
    cases hnext
    exact ⟨⟨none, (fun p hp => by cases hp), hnone⟩, hsound⟩
  | act a env pick =>
    cases a with
    | dispatch inp => exact inv_dispatch ⟨⟨u, hprogram, hcheck⟩, hsound⟩ hnext
    | tick =>
      obtain ⟨cell, hcell, rfl⟩ := Option.map_eq_some_iff.mp hnext
      refine ⟨⟨none, fun p hp => ?_, hnone⟩, hsound⟩
      simp only [delivery.next, Option.ite_none_right_eq_some, Option.some.injEq] at hcell
      obtain ⟨-, rfl⟩ := hcell
      exact postsChecked_inFlight (postsChecked_processOne sign _) hp
    | move m =>
      obtain ⟨cell, hcell, rfl⟩ := Option.map_eq_some_iff.mp hnext
      have hdispatch : cell.dispatch = s.cell.dispatch := (grows_move hcell).dispatch
      exact ⟨⟨u, fun p hp => hprogram p (hdispatch ▸ hp), hcheck⟩, hsound⟩
    | dispatchRaises message =>
      obtain ⟨cell, hcell, rfl⟩ := Option.map_eq_some_iff.mp hnext
      simp only [delivery.next] at hcell
      split at hcell
      · rename_i op k hdispatch
        cases hcell
        obtain ⟨-, hk⟩ := hprogram _ hdispatch
        have hkept : ∀ url, passed u op (.error (.other message)) = some url → u = some url := by
          intro url hurl
          cases op <;> first | exact hurl | cases hurl
        refine ⟨⟨_, fun p hp => postsChecked_inFlight (hk _) hp, fun url hurl => ?_⟩, hsound⟩
        exact hcheck url (hkept url hurl)
      · cases hcell

end Steps

/-- Outside the two dev modes every POST goes to a host of the list, over https
in prod. Its address is pinned exactly when the lookup of the HTTP client gives
one that the check saw, as it does when the resolver stays with its answer. -/
theorem a_post_is_pinned_iff {w : World} {sign : Signer} {c : Cell} {labels : List Label}
    {s : State} (hrun : runs.exec (next w sign) (before c) labels = some s) :
    ∀ conn ∈ s.connections, ∃ check, conn.check = some check ∧
      (¬ DevMode w.lib check.env →
        Listed w.lib check conn ∧ (Pinned w.lib check conn ↔ Checked check conn) ∧
          ((∀ m n, w.dns m conn.host = w.dns n conn.host) → Pinned w.lib check conn)) := by
  have hinv : Inv w (before c) := by
    refine ⟨⟨none, (fun p hp => by cases hp), fun url hurl => by cases hurl⟩, ?_⟩
    intro conn hconn
    cases hconn
  intro conn hconn
  obtain ⟨check, hcheck, ⟨hurl, hallows, first, hfirst⟩, hhost, second, addresses, hsecond, hmem⟩ :=
    (invariant_of_next (fun _ _ _ => inv_next) hinv hrun).sound conn hconn
  refine ⟨check, hcheck, fun hmode => ?_⟩
  obtain ⟨parsed, hparsed, hscheme, hlisted, hpublic⟩ := allows_spec hallows hmode
  rw [hurl] at hparsed
  have hname : lower w.lib (parsed.hostname.getD "") = conn.host := by
    unfold hostOf at hhost
    rw [hparsed] at hhost
    exact Option.some.inj hhost
  rw [hname] at hlisted hpublic
  have hpinned : Checked check conn → Pinned w.lib check conn := by
    rintro ⟨addresses, haddresses, hmem⟩
    exact ⟨⟨addresses, haddresses, hmem⟩, isPublic_of_resolves hpublic haddresses hmem⟩
  refine ⟨⟨hlisted, fun hprod => ⟨parsed, hparsed, hscheme hprod⟩⟩, ⟨fun h => h.1, hpinned⟩, ?_⟩
  intro hstable
  refine hpinned ⟨addresses, ?_, hmem⟩
  rw [hfirst, hstable first second, hsecond]

/-! ## A resolver that changes its answer -/

def smallLib : Lib where
  str := ascii
  urlparse url :=
    if url = "https://hooks.test/done" then .ok ⟨"https", some "hooks.test"⟩
    else .ok ⟨"", none⟩
  ipAddress address :=
    if address = "93.184.216.34" then .ok ⟨false, false, false, false, false, false⟩
    else if address = "169.254.169.254" then .ok ⟨true, false, true, false, false, false⟩
    else .error "not an address"

/-- The first lookup gives the first of these, every later one the second. -/
def smallWorld (first second : String) : World where
  lib := smallLib
  dns n _ := .ok [if n = 0 then first else second]

def prodEnviron : Environ := fun name =>
  if name = "IMAGEGEN_ENV" then some "prod"
  else if name = "WEBHOOK_ALLOWED_HOSTS" then some "hooks.test"
  else none

def completedCell : Cell :=
  (created (hookedSubmission .async) false "gen_1" 0).setJob fun j =>
    { j with status := .completed, webhookHandover := true }

/-- A pass up to its POST. -/
def oneAttempt : List Label :=
  .act .tick prodEnviron 0 :: List.replicate 10 (.act (.dispatch (smallInput 5 200)) prodEnviron 0)

/-- A connection, and what its check has read. -/
structure Report where
  host : String
  address : String
  imagegenEnv : String
  addresses : List String
  deriving DecidableEq

def Connection.report (lib : Lib) (conn : Connection) : Option Report := do
  let check ← conn.check
  let addresses ← (check.getaddrinfo conn.host).toOption
  return ⟨conn.host, conn.address, imagegenEnv lib check.env, addresses⟩

def reports (w : World) (labels : List Label) : Option (List (Option Report)) :=
  (runs.exec (next w smallSign) (before completedCell) labels).map fun s =>
    s.connections.map fun conn => conn.report w.lib

theorem reports_spec {w : World} {labels : List Label} {r : Report}
    (h : reports w labels = some [some r]) (hprod : r.imagegenEnv = "prod") :
    ∃ s conn check, runs.exec (next w smallSign) (before completedCell) labels = some s ∧
      conn ∈ s.connections ∧ conn.check = some check ∧ conn.address = r.address ∧
      ¬ DevMode w.lib check.env ∧ check.getaddrinfo conn.host = .ok r.addresses := by
  obtain ⟨s, hs, hreports⟩ := Option.map_eq_some_iff.mp h
  obtain ⟨conn, rest, hconnections, hconn, -⟩ := List.map_eq_cons_iff.mp hreports
  simp only [Connection.report, Option.bind_eq_bind, Option.bind_eq_some_iff] at hconn
  obtain ⟨check, hcheck, addresses, haddresses, hr⟩ := hconn
  cases hr
  refine ⟨s, conn, check, hs, by simp [hconnections], hcheck, rfl, ?_, ?_⟩
  · rintro ⟨hdev, -⟩
    have hclash : "dev" = "prod" := hdev.symm.trans hprod
    exact absurd hclash (by decide)
  · rcases hinfos : check.getaddrinfo conn.host with e | infos <;> rw [hinfos] at haddresses <;>
      cases haddresses
    rfl

theorem a_post_is_pinned_iff_stable : ∃ s conn check,
    runs.exec (next (smallWorld "93.184.216.34" "93.184.216.34") smallSign) (before completedCell)
      oneAttempt = some s ∧ conn ∈ s.connections ∧ conn.check = some check ∧
      Pinned smallLib check conn := by
  have hreports : reports (smallWorld "93.184.216.34" "93.184.216.34") oneAttempt =
      some [some ⟨"hooks.test", "93.184.216.34", "prod", ["93.184.216.34"]⟩] := by
    decide +kernel
  obtain ⟨s, conn, check, hs, hconn, hcheck, -, hmode, -⟩ := reports_spec hreports rfl
  obtain ⟨check', hcheck', hpinned⟩ := a_post_is_pinned_iff hs conn hconn
  rw [hcheck, Option.some.injEq] at hcheck'
  subst hcheck'
  exact ⟨s, conn, check, hs, hconn, hcheck, (hpinned hmode).2.2 fun m n => by simp [smallWorld]⟩

/-- The check sees a public address, and the POST goes to the metadata service. -/
theorem a_post_to_an_unchecked_address : ∃ w s conn check,
    runs.exec (next w smallSign) (before completedCell) oneAttempt = some s ∧
      conn ∈ s.connections ∧ conn.check = some check ∧ ¬ DevMode w.lib check.env ∧
      ¬ Pinned w.lib check conn := by
  have hreports : reports (smallWorld "93.184.216.34" "169.254.169.254") oneAttempt =
      some [some ⟨"hooks.test", "169.254.169.254", "prod", ["93.184.216.34"]⟩] := by
    decide +kernel
  obtain ⟨s, conn, check, hs, hconn, hcheck, haddress, hmode, hlookup⟩ := reports_spec hreports rfl
  refine ⟨_, s, conn, check, hs, hconn, hcheck, hmode, ?_⟩
  rintro ⟨⟨addresses, haddresses, hmem⟩, -⟩
  rw [hlookup, Except.ok.injEq] at haddresses
  subst haddresses
  rw [haddress] at hmem
  exact absurd hmem (by decide)

end image_gen.webhook_target

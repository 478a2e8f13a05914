-- The reconfiguration of the running service (`app/api/admin.py`): the registry is reloaded, a
-- bundle of models is set up or closed, each request under one lock.
import ImageGen.ModelUnload
import ImageGen.Sections
import ImageGen.SmokeTests

namespace image_gen.runtime_admin

open image_gen.coroutine image_gen.sections
open image_gen.graph (reprList)
open image_gen.preparability (ltxModels ltx_loaded)
open image_gen.registry (LoadError Site YamlFile loadRegistry)
open image_gen.requests (ModelConfig)
open image_gen.smoke_tests (Tester gapTester runRegistrySmokeTests)
open Relation (ReflTransGen)

/-! ## The handlers -/

/-- `app.state.runtime_bundle`. A key that is not there is none, or false. -/
structure Bundle where
  activeModels : List String
  warmup : Bool
  updatedAt : Option String
  closed : Bool
  lastRegistryReloadAt : Option String

/-- What the lock guards. -/
structure Runtime where
  registry : List ModelConfig
  /-- The registry of the worker. -/
  workerRegistry : List ModelConfig
  bundle : Bundle

inductive Exc
  | load (e : LoadError)
  | smoke (e : smoke_tests.Exc)
  | unload (e : model_unload.Exc)
  | cancelled

inductive Op
  /-- `load_registry`. -/
  | loadRegistry
  | registry
  | nowIso
  /-- The registry of the app and of the worker, and the mark in the bundle. There is no `await`
  between the three. -/
  | install (models : List ModelConfig) (now : String)
  /-- `run_registry_smoke_tests`. -/
  | smoke (models : List ModelConfig)
  | unloadModels
  | setBundle (bundle : Bundle)

@[reducible] def Op.Ans : Op → Type
  | .loadRegistry => List ModelConfig
  | .registry => List ModelConfig
  | .nowIso => String
  | .unloadModels => Bool
  | _ => Unit

abbrev Prog (α : Type) := Co Exc Op Op.Ans α

def ask (op : Op) : Prog op.Ans := Co.call op

inductive Answer
  | reloaded (models : List String)
  | error (statusCode : Nat) (code message : String)
  | bundle (runtimeBundle : Bundle)
  | closed (unloaded : Bool) (runtimeBundle : Bundle)

/-- `Registry.names`. -/
def names (models : List ModelConfig) : List String := models.map (·.name)

def reloadRegistry : Prog Answer := do
  let models ← ask .loadRegistry
  ask (.install models (← ask .nowIso))
  return .reloaded (names models)

def unknownNames (models : List ModelConfig) (modelNames : List String) : List String :=
  modelNames.filter fun name => !(names models).contains name

/-- `Registry({name: registry.get(name) for name in body.model_names})`. -/
def subset (models : List ModelConfig) (modelNames : List String) : List ModelConfig :=
  modelNames.eraseDups.filterMap (registry.get models)

def setupBundle (modelNames : List String) (warmup : Bool) : Prog Answer := do
  let models ← ask .registry
  let unknown := unknownNames models modelNames
  if unknown ≠ [] then
    return .error 404 "unknown_model" ("unknown model(s): " ++ reprList unknown)
  if warmup then ask (.smoke (subset models modelNames))
  let bundle : Bundle := ⟨modelNames, warmup, some (← ask .nowIso), false, none⟩
  ask (.setBundle bundle)
  return .bundle bundle

def closeBundle : Prog Answer := do
  let unloaded ← ask .unloadModels
  let bundle : Bundle := ⟨[], false, some (← ask .nowIso), true, none⟩
  ask (.setBundle bundle)
  return .closed unloaded bundle

inductive AdminRequest
  | reloadRegistry
  /-- A `SetupBundleRequest`. -/
  | setupBundle (modelNames : List String) (warmup : Bool) (size : 1 ≤ modelNames.length)
      (most : modelNames.length ≤ 20)
  | closeBundle

/-- What a handler does under the lock. -/
def handler : AdminRequest → Prog Answer
  | .reloadRegistry => reloadRegistry
  | .setupBundle modelNames warmup _ _ => setupBundle modelNames warmup
  | .closeBundle => closeBundle

/-! ## What they do -/

/-- A registry that has passed the checks of its file. -/
def Loaded (models : List ModelConfig) : Prop :=
  ∃ (site : Site) (yaml : YamlFile), loadRegistry site yaml = .ok models

/-- The smoke tests end so, over the workflow files of that time. -/
def Smoke (x : Tester) (models : List ModelConfig) (r : Except smoke_tests.Exc Unit) : Prop :=
  ∃ site t, (runRegistrySmokeTests { x with site := site } models 60).EndsIn Co.traced [] r t

/-- `unload_models` comes to an end so, over whatever ComfyUI answers. -/
inductive Unload (x : Tester) : Except Exc Bool → Prop
  | returned (now : Nat) (labels : List model_unload.Label) (s : model_unload.State)
      (unloaded : Bool) (hrun : runs.exec (model_unload.next x.site.py 30000)
        (model_unload.call 30000 now) labels = some s) (hpc : s.pc = .returned unloaded) :
      Unload x (.ok unloaded)
  | raised (now : Nat) (labels : List model_unload.Label) (s : model_unload.State)
      (e : model_unload.Exc) (hrun : runs.exec (model_unload.next x.site.py 30000)
        (model_unload.call 30000 now) labels = some s) (hpc : s.pc = .raised e) :
      Unload x (.error (.unload e))

section Effects

variable (x : Tester)

inductive Acts : (op : Op) → Runtime → Except Exc op.Ans → Runtime → Prop
  | loaded (w : Runtime) (models : List ModelConfig) (h : Loaded models) :
      Acts .loadRegistry w (.ok models) w
  | notLoaded (w : Runtime) (e : LoadError) : Acts .loadRegistry w (.error (.load e)) w
  | registry (w : Runtime) : Acts .registry w (.ok w.registry) w
  | nowIso (w : Runtime) (now : String) : Acts .nowIso w (.ok now) w
  | install (w : Runtime) (models : List ModelConfig) (now : String) :
      Acts (.install models now) w (.ok ())
        ⟨models, models, { w.bundle with lastRegistryReloadAt := some now }⟩
  | smoked (w : Runtime) (models : List ModelConfig) (h : Smoke x models (.ok ())) :
      Acts (.smoke models) w (.ok ()) w
  | notSmoked (w : Runtime) (models : List ModelConfig) (e : smoke_tests.Exc)
      (h : Smoke x models (.error e)) : Acts (.smoke models) w (.error (.smoke e)) w
  | smokeCancelled (w : Runtime) (models : List ModelConfig) :
      Acts (.smoke models) w (.error .cancelled) w
  | unloadModels (w : Runtime) (r : Except Exc Bool) (h : Unload x r) : Acts .unloadModels w r w
  | setBundle (w : Runtime) (bundle : Bundle) :
      Acts (.setBundle bundle) w (.ok ()) { w with bundle := bundle }

/-- What an answered request has done, and what it has found. -/
inductive Effect : AdminRequest → Except Exc Answer → Runtime → Runtime → Prop
  | reloaded (w : Runtime) (models : List ModelConfig) (now : String) (h : Loaded models) :
      Effect .reloadRegistry (.ok (.reloaded (names models))) w
        ⟨models, models, { w.bundle with lastRegistryReloadAt := some now }⟩
  | unknown (w : Runtime) (modelNames : List String) (warmup : Bool)
      (size : 1 ≤ modelNames.length) (most : modelNames.length ≤ 20)
      (h : ¬ modelNames ⊆ names w.registry) :
      Effect (.setupBundle modelNames warmup size most)
        (.ok (.error 404 "unknown_model"
          ("unknown model(s): " ++ reprList (unknownNames w.registry modelNames)))) w w
  | setUp (w : Runtime) (modelNames : List String) (warmup : Bool) (now : String)
      (size : 1 ≤ modelNames.length) (most : modelNames.length ≤ 20)
      (h : modelNames ⊆ names w.registry)
      (hwarm : warmup = true → Smoke x (subset w.registry modelNames) (.ok ())) :
      Effect (.setupBundle modelNames warmup size most)
        (.ok (.bundle ⟨modelNames, warmup, some now, false, none⟩)) w
        { w with bundle := ⟨modelNames, warmup, some now, false, none⟩ }
  | closed (w : Runtime) (unloaded : Bool) (now : String) (h : Unload x (.ok unloaded)) :
      Effect .closeBundle (.ok (.closed unloaded ⟨[], false, some now, true, none⟩)) w
        { w with bundle := ⟨[], false, some now, true, none⟩ }
  /-- A request that raises has changed nothing. -/
  | failed (w : Runtime) (req : AdminRequest) (e : Exc) : Effect req (.error e) w w

/-- What holds between the requests. -/
structure Consistent (w : Runtime) : Prop where
  same : w.workerRegistry = w.registry
  loaded : Loaded w.registry
  /-- A reload does not look at the bundle, and leaves its mark there. -/
  known : w.bundle.lastRegistryReloadAt = none → w.bundle.activeModels ⊆ names w.registry

end Effects

/-! ## The handlers have these effects -/

section Handlers

variable {x : Tester} {w : Runtime}

/-- A state of a section: nothing has been done, or all of it. -/
def Halfway (x : Tester) (req : AdminRequest) (w w' : Runtime) : Prop :=
  w' = w ∨ ∃ a, Effect x req (.ok a) w w'

theorem unknownNames_eq_nil {models : List ModelConfig} {modelNames : List String} :
    unknownNames models modelNames = [] ↔ modelNames ⊆ names models := by
  simp [unknownNames, List.filter_eq_nil_iff, List.subset_def]

theorem holds_reloadRegistry :
    reloadRegistry.Holds (Acts x) (Halfway x .reloadRegistry w)
      (fun r w' => Effect x .reloadRegistry r w w') w := by
  unfold reloadRegistry
  refine Co.holds_bind (Co.holds_call _ _ fun r w' hact => ?_)
  cases hact with
  | notLoaded _ e => exact ⟨.inl rfl, .failed w _ _⟩
  | loaded _ models hmodels =>
    refine ⟨.inl rfl, Co.holds_bind (Co.holds_call _ _ fun r w' hact => ?_)⟩
    cases hact with
    | nowIso _ now =>
      refine ⟨.inl rfl, Co.holds_bind (Co.holds_call _ _ fun r w' hact => ?_)⟩
      cases hact with
      | install =>
        have heffect := Effect.reloaded (x := x) w models now hmodels
        exact ⟨.inr ⟨_, heffect⟩, heffect⟩

/-- The end of the two handlers that set the bundle. -/
theorem holds_setBundle {req : AdminRequest} {bundle : Bundle} {a : Answer}
    (h : Effect x req (.ok a) w { w with bundle := bundle }) :
    (do ask (.setBundle bundle); return a : Prog Answer).Holds (Acts x) (Halfway x req w)
      (fun r w' => Effect x req r w w') w := by
  refine Co.holds_bind (Co.holds_call _ _ fun r w' hact => ?_)
  cases hact with
  | setBundle => exact ⟨.inr ⟨a, h⟩, h⟩

theorem holds_setupBundle (modelNames : List String) (warmup : Bool)
    (size : 1 ≤ modelNames.length) (most : modelNames.length ≤ 20) :
    (setupBundle modelNames warmup).Holds (Acts x)
      (Halfway x (.setupBundle modelNames warmup size most) w)
      (fun r w' => Effect x (.setupBundle modelNames warmup size most) r w w') w := by
  unfold setupBundle
  refine Co.holds_bind (Co.holds_call _ _ fun r w' hact => ?_)
  cases hact with
  | registry =>
    refine ⟨.inl rfl, ?_⟩
    dsimp only
    by_cases hunknown : unknownNames w.registry modelNames = []
    on_goal 2 =>
      rw [if_pos hunknown]
      exact .unknown w modelNames warmup size most fun h => hunknown (unknownNames_eq_nil.mpr h)
    rw [if_neg (not_not.mpr hunknown)]
    have hknown := unknownNames_eq_nil.mp hunknown
    have hrest : (warmup = true → Smoke x (subset w.registry modelNames) (.ok ())) →
        (do
          let bundle : Bundle := ⟨modelNames, warmup, some (← ask .nowIso), false, none⟩
          ask (.setBundle bundle)
          return .bundle bundle : Prog Answer).Holds (Acts x)
          (Halfway x (.setupBundle modelNames warmup size most) w)
          (fun r w' => Effect x (.setupBundle modelNames warmup size most) r w w') w := by
      intro hwarm
      refine Co.holds_bind (Co.holds_call _ _ fun r w' hact => ?_)
      cases hact with
      | nowIso _ now =>
        exact ⟨.inl rfl, holds_setBundle (.setUp w modelNames warmup now size most hknown hwarm)⟩
    cases warmup with
    | false => exact hrest (by simp)
    | true =>
      refine Co.holds_bind (Co.holds_call _ _ fun r w' hact => ?_)
      cases hact with
      | smoked _ _ hsmoke => exact ⟨.inl rfl, hrest fun _ => hsmoke⟩
      | notSmoked _ _ e => exact ⟨.inl rfl, .failed w _ _⟩
      | smokeCancelled => exact ⟨.inl rfl, .failed w _ _⟩

theorem holds_closeBundle :
    closeBundle.Holds (Acts x) (Halfway x .closeBundle w)
      (fun r w' => Effect x .closeBundle r w w') w := by
  unfold closeBundle
  refine Co.holds_bind (Co.holds_call _ _ fun r w' hact => ?_)
  cases hact with
  | unloadModels _ _ hunload =>
    cases r with
    | error e => exact ⟨.inl rfl, .failed w _ _⟩
    | ok unloaded =>
      refine ⟨.inl rfl, Co.holds_bind (Co.holds_call _ _ fun r w' hact => ?_)⟩
      cases hact with
      | nowIso _ now => exact ⟨.inl rfl, holds_setBundle (.closed w unloaded now hunload)⟩

theorem holds_handler (req : AdminRequest) (w : Runtime) :
    (handler req).Holds (Acts x) (Halfway x req w) (fun r w' => Effect x req r w w') w := by
  cases req with
  | reloadRegistry => exact holds_reloadRegistry
  | setupBundle modelNames warmup size most => exact holds_setupBundle modelNames warmup size most
  | closeBundle => exact holds_closeBundle

theorem Effect.consistent {req : AdminRequest} {r : Except Exc Answer} {w' : Runtime}
    (h : Effect x req r w w') (hw : Consistent w) : Consistent w' := by
  cases h with
  | reloaded _ models now hmodels => exact ⟨rfl, hmodels, fun hnone => (by cases hnone)⟩
  | unknown => exact hw
  | setUp _ modelNames warmup now size most hknown => exact ⟨hw.same, hw.loaded, fun _ => hknown⟩
  | closed => exact ⟨hw.same, hw.loaded, fun _ => List.nil_subset _⟩
  | failed => exact hw

end Handlers

/-! ## The service -/

/-- The service after its start. -/
def started (models : List ModelConfig) : Runtime :=
  ⟨models, models, ⟨[], false, none, false, none⟩⟩

/-- However reloads, set-ups and closings come, wait, fail and are cancelled: they have been
done one after the other, in the order in which they gave the lock back, each at one moment and
as its answer says. At every moment the worker has the registry of the app, which has passed the
checks of its file, and every active model is in it, unless the bundle is marked by a reload. -/
theorem reconfigurations_take_turns (x : Tester) {models : List ModelConfig}
    (hstart : Loaded models) {p : Pool Exc Op.Ans Answer Runtime AdminRequest}
    (h : ReflTransGen (Turn (Acts x) handler) (Pool.init (started models)) p) :
    (∃ w, Effects (Effect x) (started models) p.left w ∧ (p.shared = w ∨
      ∃ req rest a, p.inside = some (req, rest) ∧ Effect x req (.ok a) w p.shared)) ∧
    Consistent p.shared := by
  obtain ⟨w, heffects, hshared⟩ := effects_of_turns holds_handler h
  have hstarted : Consistent (started models) := ⟨rfl, hstart, fun _ => List.nil_subset _⟩
  have hw : Consistent w := heffects.keep (fun _ _ _ _ he hc => he.consistent hc) hstarted
  refine ⟨⟨w, heffects, hshared⟩, ?_⟩
  rcases hshared with hsame | ⟨req, rest, a, -, heffect⟩
  · rw [hsame]
    exact hw
  · exact heffect.consistent hw

/-- A bundle of one model is set up, without a warm-up. -/
theorem the_ltx_bundle_is_known :
    ∃ p : Pool Exc Op.Ans Answer Runtime AdminRequest,
      ReflTransGen (Turn (Acts gapTester) handler) (Pool.init (started ltxModels)) p ∧
        p.shared.bundle.activeModels = ["ltx"] ∧
        p.shared.bundle.activeModels ⊆ names p.shared.registry := by
  have hunknown : unknownNames ltxModels ["ltx"] = [] := by decide +kernel
  have hend : (handler (.setupBundle ["ltx"] false (by decide) (by decide))).EndsIn (Acts gapTester)
      (started ltxModels) (.ok (.bundle ⟨["ltx"], false, some "now", false, none⟩))
      { started ltxModels with bundle := ⟨["ltx"], false, some "now", false, none⟩ } := by
    refine Co.endsIn_bind (Co.endsIn_call (.registry _)) ?_
    change (if unknownNames ltxModels ["ltx"] ≠ [] then _ else _ : Prog Answer).EndsIn _ _ _ _
    rw [if_neg (not_not.mpr hunknown)]
    refine Co.endsIn_bind (Co.endsIn_call (.nowIso _ "now")) ?_
    exact Co.endsIn_bind (Co.endsIn_call (.setBundle _ _)) (Co.endsIn_pure _ _)
  have hturns := turns_of_serial (.next (.none _) hend)
  refine ⟨_, hturns, rfl, ?_⟩
  exact (reconfigurations_take_turns gapTester ⟨_, _, ltx_loaded⟩ hturns).2.known rfl

end image_gen.runtime_admin

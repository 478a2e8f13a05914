-- The job events that `app/monitoring/metrics.py` counts.
import Mathlib.Algebra.Order.Ring.Rat
import Mathlib.Data.List.Induction
import ImageGen.PyDict
import Mathlib.Algebra.GroupWithZero.Nat

namespace image_gen.metrics

/-- A `Counter`. -/
abbrev Counter := List (String × Nat)

namespace Counter

/-- `counter[key]`. -/
def count (c : Counter) (key : String) : Nat := (c.lookup key).getD 0

def total (c : Counter) : Nat := (c.map (·.2)).sum

/-- `counter[key] += 1`. -/
def bump (c : Counter) (key : String) : Counter := py_dict.set c key (c.count key + 1)

theorem count_bump_self (c : Counter) (key : String) : (c.bump key).count key = c.count key + 1 := by
  unfold bump
  rw [count, py_dict.lookup_set_self, Option.getD_some]

theorem count_bump_ne (c : Counter) {key k : String} (h : k ≠ key) :
    (c.bump key).count k = c.count k := by
  unfold bump
  rw [count, py_dict.lookup_set_ne _ _ h, count]

theorem total_bump (c : Counter) (key : String) : (c.bump key).total = c.total + 1 := by
  unfold bump
  induction c with
  | nil => rfl
  | cons e rest ih =>
    obtain ⟨k, n⟩ := e
    by_cases h : k = key
    · subst h
      simp only [count, List.lookup_cons_self, Option.getD_some, py_dict.set, if_true, total,
        List.map_cons, List.sum_cons]
      omega
    · have hcount : count ((k, n) :: rest) key = count rest key := by
        unfold count
        rw [py_dict.lookup_cons_ne n rest (Ne.symm h)]
      rw [hcount]
      simp only [py_dict.set, h, if_false, total, List.map_cons, List.sum_cons] at ih ⊢
      omega

end Counter

/-! ## The collector -/

/-- The part of `MonitoringMetrics` that `record_job_event` writes. Each label
set has one label, so its value stands for it. -/
structure MonitoringMetrics where
  jobEvents : Counter
  recentFailures : Counter
  timeoutEvents : List ℚ

def timeoutWindowS : ℚ := 600

namespace MonitoringMetrics

def init : MonitoringMetrics := ⟨[], [], []⟩

/-- `if error_code:`. -/
def truthy (errorCode : Option String) : Bool := errorCode.any (· ≠ "")

def recordFailure (m : MonitoringMetrics) (errorCode : String) (now : ℚ) : MonitoringMetrics where
  jobEvents := m.jobEvents
  recentFailures := m.recentFailures.bump errorCode
  timeoutEvents :=
    if errorCode = "comfy_timeout" then
      (m.timeoutEvents ++ [now]).filter fun t => t ≥ now - timeoutWindowS
    else m.timeoutEvents

def recordJobEvent (m : MonitoringMetrics) (status : String) (errorCode : Option String)
    (now : ℚ) : MonitoringMetrics :=
  let m := { m with jobEvents := m.jobEvents.bump status }
  match errorCode with
  | none => m
  | some code => if code = "" then m else m.recordFailure code now

/-- What a list of events leaves in the collector. -/
def collect (clock : Nat → ℚ) (events : List (String × Option String)) : MonitoringMetrics :=
  events.zipIdx.foldl (fun m e => m.recordJobEvent e.1.1 e.1.2 (clock e.2)) init

theorem collect_append (clock : Nat → ℚ) (events : List (String × Option String))
    (e : String × Option String) :
    collect clock (events ++ [e]) =
      (collect clock events).recordJobEvent e.1 e.2 (clock events.length) := by
  simp [collect, List.zipIdx_append]

theorem jobEvents_recordJobEvent (m : MonitoringMetrics) (status : String)
    (errorCode : Option String) (now : ℚ) :
    (m.recordJobEvent status errorCode now).jobEvents = m.jobEvents.bump status := by
  unfold recordJobEvent
  rcases errorCode with _ | code
  · rfl
  · dsimp only
    split <;> rfl

theorem recentFailures_recordJobEvent (m : MonitoringMetrics) (status : String)
    (errorCode : Option String) (now : ℚ) :
    (m.recordJobEvent status errorCode now).recentFailures.total =
      m.recentFailures.total + if truthy errorCode then 1 else 0 := by
  unfold recordJobEvent
  rcases errorCode with _ | code
  · rfl
  · by_cases h : code = ""
    · simp [h, truthy]
    · simp [h, truthy, recordFailure, Counter.total_bump]

theorem count_collect (clock : Nat → ℚ) (events : List (String × Option String))
    (status : String) :
    (collect clock events).jobEvents.count status = events.countP (·.1 = status) := by
  induction events using List.reverseRecOn with
  | nil => rfl
  | append_singleton events e ih =>
    rw [collect_append, jobEvents_recordJobEvent, List.countP_append, ← ih, List.countP_singleton]
    by_cases h : status = e.1
    · subst h
      simp [Counter.count_bump_self]
    · simp [Counter.count_bump_ne _ h, Ne.symm h]

theorem total_collect (clock : Nat → ℚ) (events : List (String × Option String)) :
    (collect clock events).recentFailures.total = events.countP (truthy ·.2) := by
  induction events using List.reverseRecOn with
  | nil => rfl
  | append_singleton events e ih =>
    rw [collect_append, recentFailures_recordJobEvent, List.countP_append, ← ih,
      List.countP_singleton]

end MonitoringMetrics

end image_gen.metrics

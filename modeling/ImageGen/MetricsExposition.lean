-- The metrics page (`app/monitoring/metrics.py`): the counters and histograms of the
-- collector, the text that it renders, and what a scraper reads from it.
import ImageGen.Metrics
import ImageGen.Prometheus
import ImageGen.PyStr
import Mathlib.Algebra.BigOperators.Ring.List
import Mathlib.Algebra.Order.BigOperators.Group.List
import Mathlib.Algebra.Order.Field.Rat

namespace image_gen.metrics_exposition

open image_gen.py_dict image_gen.prometheus
open image_gen.metrics (MonitoringMetrics)

/-! ## The collector -/

abbrev LabelSet := List (String × String)

/-- The order of tuples of two texts. -/
def pairLe (a b : String × String) : Bool :=
  decide (a.1 < b.1) || (decide (a.1 = b.1) && !decide (b.2 < a.2))

def labelSetLe : LabelSet → LabelSet → Bool
  | [], _ => true
  | _ :: _, [] => false
  | a :: as, b :: bs => if a = b then labelSetLe as bs else pairLe a b

/-- `_labels_key`. -/
def labelsKey (labels : List (String × String)) : LabelSet := labels.mergeSort pairLe

/-- A bound in milliseconds, with `str(bound / 1000.0)`. -/
def httpBucketsMs : List (ℚ × String) :=
  [(10, "0.01"), (25, "0.025"), (50, "0.05"), (100, "0.1"), (250, "0.25"), (500, "0.5"),
    (1000, "1.0"), (3000, "3.0"), (10000, "10.0")]

def binaryBucketsMs : List (ℚ × String) :=
  [(100, "0.1"), (250, "0.25"), (500, "0.5"), (1000, "1.0"), (3000, "3.0"), (10000, "10.0"),
    (30000, "30.0")]

/-- The sum is kept as what was added to it. -/
structure HistogramState where
  sumValue : List ℚ
  countValue : ℕ
  buckets : Option (List (ℚ × ℕ))

def HistogramState.new : HistogramState := ⟨[], 0, none⟩

def observe (bounds : List (ℚ × String)) (hist : HistogramState) (durationMs : ℚ) :
    HistogramState :=
  let buckets := hist.buckets.getD (bounds.map fun b => (b.1, 0))
  { sumValue := hist.sumValue ++ [durationMs]
    countValue := hist.countValue + 1
    buckets := some (bounds.foldl (fun d b =>
      if durationMs ≤ b.1 then set d b.1 ((d.lookup b.1).getD 0 + 1) else d) buckets) }

/-- What `render_prometheus` reads of `MonitoringMetrics`. -/
structure Collector where
  httpRequests : List (LabelSet × ℕ)
  httpHist : List (LabelSet × HistogramState)
  binaryRequests : List (LabelSet × ℕ)
  binaryHist : List (LabelSet × HistogramState)
  jobs : MonitoringMetrics

def Collector.init : Collector := ⟨[], [], [], [], .init⟩

/-- `counter[key] += 1`. -/
def increment {κ : Type} [DecidableEq κ] (counter : List (κ × ℕ)) (key : κ) : List (κ × ℕ) :=
  set counter key ((counter.lookup key).getD 0 + 1)

/-- `hist[key]` of a `defaultdict`, observed. -/
def observeAt {κ : Type} [DecidableEq κ] (bounds : List (ℚ × String))
    (hist : List (κ × HistogramState)) (key : κ) (durationMs : ℚ) : List (κ × HistogramState) :=
  set hist key (observe bounds ((hist.lookup key).getD .new) durationMs)

def httpLabels (method path : String) (statusCode : ℤ) : LabelSet :=
  labelsKey [("method", method), ("path", path), ("status", toString statusCode)]

def statusLabels (status : String) : LabelSet := labelsKey [("status", status)]

inductive Call
  | http (method path : String) (statusCode : ℤ) (durationMs : ℚ)
  | binary (status : String) (durationMs : ℚ)
  | job (status : String) (errorCode : Option String)

/-- `record_http_request`, `record_binary_request` and `record_job_event`. -/
def Collector.record (c : Collector) (now : ℚ) : Call → Collector
  | .http method path statusCode durationMs =>
    let labels := httpLabels method path statusCode
    { c with
      httpRequests := increment c.httpRequests labels
      httpHist := observeAt httpBucketsMs c.httpHist labels durationMs }
  | .binary status durationMs =>
    let labels := statusLabels status
    { c with
      binaryRequests := increment c.binaryRequests labels
      binaryHist := observeAt binaryBucketsMs c.binaryHist labels durationMs }
  | .job status errorCode => { c with jobs := c.jobs.recordJobEvent status errorCode now }

/-- What a list of calls leaves in the collector. -/
def collect (clock : ℕ → ℚ) (calls : List Call) : Collector :=
  calls.zipIdx.foldl (fun c call => c.record (clock call.2) call.1) .init

/-! ## The page -/

/-- The texts of floats, and what a scraper takes as a float. -/
structure Floats where
  /-- `f"{x:.3f}"`. -/
  fixed3 : ℚ → List Char
  /-- `f"{x:.6f}"` of the sum of the durations, each divided by 1000. -/
  sumText : List ℚ → List Char
  isFloat : List Char → Bool
  fixed3_isFloat : ∀ x, isFloat (fixed3 x) = true
  sum_isFloat : ∀ xs, isFloat (sumText xs) = true
  int_isFloat : ∀ i : ℤ, isFloat (toString i).toList = true
  /-- Digits, letters, signs, points and underscores. -/
  chars : ∀ x, isFloat x = true → x ≠ [] ∧
    ∀ c ∈ x, c.isAlphanum = true ∨ c = '+' ∨ c = '-' ∨ c = '.' ∨ c = '_'

def natText (n : ℕ) : List Char := (toString n).toList

def intText (i : ℤ) : List Char := (toString i).toList

def charLabels (labels : LabelSet) : Labels := labels.map fun l => (l.1.toList, l.2.toList)

/-- `_labels_text`. -/
def labelsText (labels : LabelSet) : List Char :=
  if labels = [] then []
  else '{' :: ([','].intercalate ((charLabels labels).map labelText) ++ ['}'])

def sampleLine (name : String) (labels : LabelSet) (value : List Char) : List Char :=
  name.toList ++ labelsText labels ++ ' ' :: value

def header (name help type : String) : List (List Char) :=
  ["# HELP ".toList ++ name.toList ++ ' ' :: help.toList,
    "# TYPE ".toList ++ name.toList ++ ' ' :: type.toList]

/-- `(hist.buckets or {}).get(bound, 0)`. -/
def bucketCount (hist : HistogramState) (bound : ℚ) : ℕ :=
  ((hist.buckets.getD []).lookup bound).getD 0

def counterLines (name : String) (counts : List (LabelSet × ℕ)) : List (List Char) :=
  (counts.mergeSort fun a b => labelSetLe a.1 b.1).map fun e => sampleLine name e.1 (natText e.2)

section Render

variable (floats : Floats)

def histogramLines (name : String) (bounds : List (ℚ × String))
    (hist : List (LabelSet × HistogramState)) : List (List Char) :=
  (hist.mergeSort fun a b => labelSetLe a.1 b.1).flatMap fun e =>
    (bounds.map fun b =>
      sampleLine (name ++ "_bucket") (e.1 ++ [("le", b.2)]) (natText (bucketCount e.2 b.1))) ++
    [sampleLine (name ++ "_bucket") (e.1 ++ [("le", "+Inf")]) (natText e.2.countValue),
      sampleLine (name ++ "_sum") e.1 (floats.sumText e.2.sumValue),
      sampleLine (name ++ "_count") e.1 (natText e.2.countValue)]

def gauge (name help : String) (value : List Char) : List (List Char) :=
  header name help "gauge" ++ [sampleLine name [] value]

/-- The job counter has one label, so its value stands for the set. -/
def jobCounts (c : Collector) : List (LabelSet × ℕ) :=
  c.jobs.jobEvents.map fun e => (statusLabels e.1, e.2)

def timeoutAlertThreshold : ℕ := 3

/-- The other numbers of the page. -/
structure Gauges where
  uptimeS : ℚ
  queueDepth : ℤ
  workerConcurrency : ℤ
  activeJobs : ℤ

def pageLines (c : Collector) (g : Gauges) : List (List Char) :=
  gauge "imagegen_uptime_seconds" "Process uptime in seconds." (floats.fixed3 g.uptimeS) ++
  header "imagegen_http_requests_total" "Total HTTP requests." "counter" ++
  counterLines "imagegen_http_requests_total" c.httpRequests ++
  header "imagegen_http_request_duration_seconds" "HTTP request latency." "histogram" ++
  histogramLines floats "imagegen_http_request_duration_seconds" httpBucketsMs c.httpHist ++
  header "imagegen_binary_requests_total" "Total binary endpoint requests." "counter" ++
  counterLines "imagegen_binary_requests_total" c.binaryRequests ++
  header "imagegen_binary_request_duration_seconds" "Binary endpoint latency." "histogram" ++
  histogramLines floats "imagegen_binary_request_duration_seconds" binaryBucketsMs c.binaryHist ++
  header "imagegen_job_events_total" "Job lifecycle event counts." "counter" ++
  counterLines "imagegen_job_events_total" (jobCounts c) ++
  gauge "imagegen_queue_depth" "Current queue depth." (intText g.queueDepth) ++
  gauge "imagegen_worker_concurrency" "Configured worker concurrency."
    (intText g.workerConcurrency) ++
  gauge "imagegen_active_jobs" "Current active jobs (queued/running)." (intText g.activeJobs) ++
  gauge "imagegen_comfy_timeout_window_count" "Timeouts in alert window."
    (natText c.jobs.timeoutEvents.length) ++
  gauge "imagegen_comfy_timeout_alert_triggered" "Timeout alert threshold reached."
    (natText (if timeoutAlertThreshold ≤ c.jobs.timeoutEvents.length then 1 else 0))

def renderPrometheus (c : Collector) (g : Gauges) : List Char :=
  ['\n'].intercalate (pageLines floats c g) ++ ['\n']

end Render

/-! ## What a scraper should read -/

/-- The samples of a name. -/
def family (samples : List Sample) (name : String) : List (Labels × List Char) :=
  (samples.filter fun s => s.name = name.toList).map fun s => (s.labels, s.value)

/-- One sample for each label set, with the number of its calls. -/
def CounterHolds (samples : List Sample) (name : String) (recorded : List LabelSet) : Prop :=
  (family samples name).Perm
    (recorded.dedup.map fun labels => (charLabels labels, natText (recorded.countP (· = labels))))

/-- The numbers of durations up to each bound, and at last of all. -/
def bucketCounts (bounds : List (ℚ × String)) (durations : List ℚ) : List (String × ℕ) :=
  bounds.map (fun b => (b.2, durations.countP (· ≤ b.1))) ++ [("+Inf", durations.length)]

def durationsOf (observed : List (LabelSet × ℚ)) (labels : LabelSet) : List ℚ :=
  (observed.filter fun e => e.1 = labels).map (·.2)

structure HistogramHolds (samples : List Sample) (name : String) (bounds : List (ℚ × String))
    (observed : List (LabelSet × ℚ)) : Prop where
  buckets : (family samples (name ++ "_bucket")).Perm
    ((observed.map (·.1)).dedup.flatMap fun labels =>
      (bucketCounts bounds (durationsOf observed labels)).map fun b =>
        (charLabels (labels ++ [("le", b.1)]), natText b.2))
  counts : (family samples (name ++ "_count")).Perm
    ((observed.map (·.1)).dedup.map fun labels =>
      (charLabels labels, natText (durationsOf observed labels).length))
  nondecreasing : ∀ labels,
    (bucketCounts bounds (durationsOf observed labels)).Pairwise fun a b => a.2 ≤ b.2

def Call.httpEvent : Call → Option (LabelSet × ℚ)
  | .http method path statusCode durationMs => some (httpLabels method path statusCode, durationMs)
  | _ => none

def Call.binaryEvent : Call → Option (LabelSet × ℚ)
  | .binary status durationMs => some (statusLabels status, durationMs)
  | _ => none

def Call.jobStatus : Call → Option String
  | .job status _ => some status
  | _ => none

/-- The page is read, and says of every label set what was recorded. -/
def ExpositionHolds (floats : Floats) (clock : ℕ → ℚ) (calls : List Call) (g : Gauges) : Prop :=
  ∃ samples, parseText floats.isFloat (renderPrometheus floats (collect clock calls) g) =
      some samples ∧
    CounterHolds samples "imagegen_http_requests_total"
      ((calls.filterMap Call.httpEvent).map (·.1)) ∧
    HistogramHolds samples "imagegen_http_request_duration_seconds" httpBucketsMs
      (calls.filterMap Call.httpEvent) ∧
    CounterHolds samples "imagegen_binary_requests_total"
      ((calls.filterMap Call.binaryEvent).map (·.1)) ∧
    HistogramHolds samples "imagegen_binary_request_duration_seconds" binaryBucketsMs
      (calls.filterMap Call.binaryEvent) ∧
    CounterHolds samples "imagegen_job_events_total"
      ((calls.filterMap Call.jobStatus).map statusLabels)

/-- The texts that a caller may choose. -/
def Call.texts : Call → List String
  | .http method path _ _ => [method, path]
  | .binary status _ => [status]
  | .job status _ => [status]

/-! ## The label sets -/

theorem httpLabels_eq (method path : String) (statusCode : ℤ) :
    httpLabels method path statusCode =
      [("method", method), ("path", path), ("status", toString statusCode)] := by
  have h1 : "method" < "path" := by decide
  have h2 : "method" < "status" := by decide
  have h3 : "path" < "status" := by decide
  apply List.mergeSort_of_pairwise
  have le_of_lt : ∀ {a b c d : String}, a < b → pairLe (a, c) (b, d) = true := fun h =>
    Bool.or_eq_true_iff.mpr (.inl (decide_eq_true h))
  refine List.Pairwise.cons ?_ (List.Pairwise.cons ?_ (List.pairwise_singleton _ _))
  · exact List.forall_mem_cons.mpr ⟨le_of_lt h1, List.forall_mem_singleton.mpr (le_of_lt h2)⟩
  · exact List.forall_mem_singleton.mpr (le_of_lt h3)

theorem statusLabels_eq (status : String) : statusLabels status = [("status", status)] :=
  List.mergeSort_of_pairwise (by simp)

theorem statusLabels_injective : Function.Injective statusLabels := by
  intro a b h
  rw [statusLabels_eq, statusLabels_eq] at h
  simpa using h

/-! ## The collector as groups -/

theorem collect_append (clock : ℕ → ℚ) (calls : List Call) (call : Call) :
    collect clock (calls ++ [call]) = (collect clock calls).record (clock calls.length) call := by
  simp [collect, List.zipIdx_append]

/-- `counter[key] += 1` for each of the keys. -/
def tally {κ : Type} [DecidableEq κ] (keys : List κ) : List (κ × ℕ) :=
  groupBy 0 (fun n _ => n + 1) (keys.map fun k => (k, ()))

theorem tally_append {κ : Type} [DecidableEq κ] (keys : List κ) (k : κ) :
    tally (keys ++ [k]) = increment (tally keys) k := by
  unfold tally
  rw [List.map_append, List.map_singleton, groupBy_append]
  rfl

theorem tally_perm {κ : Type} [DecidableEq κ] (keys : List κ) :
    (tally keys).Perm (keys.dedup.map fun k => (k, keys.countP (· = k))) := by
  refine perm_of_lookup (nodup_groupBy _ _ _) fun k => ?_
  unfold tally
  rw [lookup_groupBy]
  have hkeys : (keys.map fun k => (k, ())).map (·.1) = keys := by
    rw [List.map_map]
    exact List.map_id keys
  have hfold : ∀ (us : List Unit) (n : ℕ), us.foldl (fun n _ => n + 1) n = n + us.length := by
    intro us
    induction us with
    | nil => exact fun n => rfl
    | cons u rest ih =>
      intro n
      rw [List.foldl_cons, ih, List.length_cons]
      omega
  have hcount : ((keys.map fun k => (k, ())).filter fun ev => ev.1 = k).length =
      keys.countP (· = k) := by
    rw [← List.countP_eq_length_filter, List.countP_map]
    rfl
  rw [hkeys, hfold, List.length_map, hcount, Nat.zero_add]

theorem requests_collect (clock : ℕ → ℚ) (calls : List Call) :
    (collect clock calls).httpRequests = tally ((calls.filterMap Call.httpEvent).map (·.1)) ∧
    (collect clock calls).binaryRequests = tally ((calls.filterMap Call.binaryEvent).map (·.1)) ∧
    (collect clock calls).jobs.jobEvents = tally (calls.filterMap Call.jobStatus) := by
  induction calls using List.reverseRecOn with
  | nil => exact ⟨rfl, rfl, rfl⟩
  | append_singleton calls call ih =>
    obtain ⟨hhttp, hbinary, hjobs⟩ := ih
    rw [collect_append]
    simp only [List.filterMap_append, List.map_append]
    cases call with
    | http method path statusCode durationMs =>
      refine ⟨?_, hbinary.trans (congrArg tally (List.append_nil _).symm),
        hjobs.trans (congrArg tally (List.append_nil _).symm)⟩
      simp only [Collector.record, hhttp]
      exact (tally_append _ _).symm
    | binary status durationMs =>
      refine ⟨hhttp.trans (congrArg tally (List.append_nil _).symm), ?_,
        hjobs.trans (congrArg tally (List.append_nil _).symm)⟩
      simp only [Collector.record, hbinary]
      exact (tally_append _ _).symm
    | job status errorCode =>
      refine ⟨hhttp.trans (congrArg tally (List.append_nil _).symm),
        hbinary.trans (congrArg tally (List.append_nil _).symm), ?_⟩
      simp only [Collector.record]
      rw [MonitoringMetrics.jobEvents_recordJobEvent, hjobs]
      exact (tally_append _ _).symm

/-- `hist[labels]`, observed for each of the durations. -/
def grouped (bounds : List (ℚ × String)) (observed : List (LabelSet × ℚ)) :
    List (LabelSet × HistogramState) :=
  groupBy .new (observe bounds) observed

theorem grouped_append (bounds : List (ℚ × String)) (observed : List (LabelSet × ℚ))
    (e : LabelSet × ℚ) :
    grouped bounds (observed ++ [e]) = observeAt bounds (grouped bounds observed) e.1 e.2 :=
  groupBy_append _ _ _ _

theorem hist_collect (clock : ℕ → ℚ) (calls : List Call) :
    (collect clock calls).httpHist = grouped httpBucketsMs (calls.filterMap Call.httpEvent) ∧
    (collect clock calls).binaryHist =
      grouped binaryBucketsMs (calls.filterMap Call.binaryEvent) := by
  induction calls using List.reverseRecOn with
  | nil => exact ⟨rfl, rfl⟩
  | append_singleton calls call ih =>
    obtain ⟨hhttp, hbinary⟩ := ih
    have hhttp' := hhttp.trans (congrArg (grouped _) (List.append_nil _).symm)
    have hbinary' := hbinary.trans (congrArg (grouped _) (List.append_nil _).symm)
    rw [collect_append]
    simp only [List.filterMap_append]
    cases call with
    | http method path statusCode durationMs =>
      refine ⟨?_, hbinary'⟩
      simp only [Collector.record, hhttp]
      exact (grouped_append _ _ (httpLabels method path statusCode, durationMs)).symm
    | binary status durationMs =>
      refine ⟨hhttp', ?_⟩
      simp only [Collector.record, hbinary]
      exact (grouped_append _ _ (statusLabels status, durationMs)).symm
    | job status errorCode => exact ⟨hhttp', hbinary'⟩

/-- The histogram of a list of durations. -/
def histOf (bounds : List (ℚ × String)) (durations : List ℚ) : HistogramState :=
  durations.foldl (observe bounds) .new

theorem grouped_perm (bounds : List (ℚ × String)) (observed : List (LabelSet × ℚ)) :
    (grouped bounds observed).Perm ((observed.map (·.1)).dedup.map fun labels =>
      (labels, histOf bounds (durationsOf observed labels))) :=
  perm_of_lookup (nodup_groupBy _ _ _) (lookup_groupBy _ _ _)

theorem sums_histOf (bounds : List (ℚ × String)) (durations : List ℚ) :
    (histOf bounds durations).sumValue = durations ∧
      (histOf bounds durations).countValue = durations.length := by
  induction durations using List.reverseRecOn with
  | nil => exact ⟨rfl, rfl⟩
  | append_singleton durations d ih =>
    unfold histOf at ih ⊢
    rw [List.foldl_append]
    simp only [List.foldl_cons, List.foldl_nil, observe, ih.1, ih.2, List.length_append,
      List.length_singleton, and_self]

theorem lookup_bumped (durationMs : ℚ) {bounds : List (ℚ × String)}
    (hnodup : (bounds.map (·.1)).Nodup) (d : List (ℚ × ℕ)) (bound : ℚ) :
    ((bounds.foldl (fun d b =>
      if durationMs ≤ b.1 then set d b.1 ((d.lookup b.1).getD 0 + 1) else d) d).lookup
        bound).getD 0 =
      (d.lookup bound).getD 0 + if bound ∈ bounds.map (·.1) ∧ durationMs ≤ bound then 1 else 0 := by
  induction bounds generalizing d with
  | nil => simp
  | cons b rest ih =>
    obtain ⟨hnot, hrest⟩ := List.nodup_cons.mp hnodup
    rw [List.foldl_cons, ih hrest]
    by_cases hb : bound = b.1
    · subst hb
      have hnin : ¬ (b.1 ∈ rest.map (·.1) ∧ durationMs ≤ b.1) := fun h => hnot h.1
      rw [if_neg hnin]
      by_cases hle : durationMs ≤ b.1
      · rw [if_pos hle, lookup_set_self, if_pos ⟨List.mem_cons_self, hle⟩]
        rfl
      · rw [if_neg hle, if_neg fun h => hle h.2]
    · have hmem : bound ∈ (b :: rest).map (·.1) ↔ bound ∈ rest.map (·.1) := by
        rw [List.map_cons, List.mem_cons]
        exact or_iff_right hb
      have hlookup : (if durationMs ≤ b.1 then set d b.1 ((d.lookup b.1).getD 0 + 1)
          else d).lookup bound = d.lookup bound := by
        split_ifs
        · exact lookup_set_ne d _ hb
        · rfl
      rw [hlookup]
      simp only [hmem]

theorem bucketCount_histOf {bounds : List (ℚ × String)} (hnodup : (bounds.map (·.1)).Nodup)
    {bound : ℚ} (hbound : bound ∈ bounds.map (·.1)) (durations : List ℚ) :
    bucketCount (histOf bounds durations) bound = durations.countP (· ≤ bound) := by
  induction durations using List.reverseRecOn with
  | nil => rfl
  | append_singleton durations d ih =>
    have hzero : ((bounds.map fun b => (b.1, 0)).lookup bound).getD 0 = 0 := by
      have hmap := lookup_mapEntries (fun _ => 0) (bounds.map fun b => (b.1, ())) bound
      rw [List.map_map] at hmap
      refine (congrArg (·.getD 0) hmap).trans ?_
      cases (bounds.map fun b => (b.1, ())).lookup bound <;> rfl
    have hbase : ∀ hist : HistogramState,
        ((hist.buckets.getD (bounds.map fun b => (b.1, 0))).lookup bound).getD 0 =
          bucketCount hist bound := by
      intro hist
      unfold bucketCount
      cases hist.buckets with
      | none => exact hzero
      | some d => rfl
    have hstep : bucketCount (histOf bounds (durations ++ [d])) bound =
        bucketCount (histOf bounds durations) bound + if d ≤ bound then 1 else 0 := by
      unfold histOf
      rw [List.foldl_append, List.foldl_cons, List.foldl_nil]
      simp only [bucketCount, observe, Option.getD_some]
      rw [lookup_bumped d hnodup, hbase]
      simp [hbound, bucketCount]
    rw [hstep, ih, List.countP_append, List.countP_singleton]
    simp

/-! ## The sections of the page -/

def sampleOf (name : String) (labels : LabelSet) (value : List Char) : Sample :=
  ⟨name.toList, charLabels labels, value, none⟩

section Sections

variable {floats : Floats}

theorem valueText_of_isFloat {x : List Char} (h : floats.isFloat x = true) : ValueText x := by
  obtain ⟨hne, hchars⟩ := floats.chars x h
  refine ⟨hne, fun c hc => ?_⟩
  rcases hchars c hc with halnum | rfl | rfl | rfl | rfl
  · exact ⟨not_blank_of_start (by decide) (by decide) halnum, ne_of_holds (by decide) halnum⟩
  all_goals exact ⟨by decide, by decide⟩

theorem not_mem_of_isFloat {x : List Char} (h : floats.isFloat x = true) {d : Char}
    (hd : d.isAlphanum = false) (hother : d ∉ ['+', '-', '.', '_']) : d ∉ x := by
  intro hin
  rcases (floats.chars x h).2 d hin with halnum | heq
  · exact ne_of_holds hd halnum rfl
  · exact hother (by simpa using heq)

theorem natText_isFloat (floats : Floats) (n : ℕ) : floats.isFloat (natText n) = true :=
  floats.int_isFloat n

theorem intText_isFloat (floats : Floats) (i : ℤ) : floats.isFloat (intText i) = true :=
  floats.int_isFloat i

/-- The characters of a sample line that are neither of a name nor of a value. -/
def punctuation : List Char := [' ', '{', '}', ',', '=', '"']

def labelsCount (d : Char) (labels : LabelSet) : ℕ :=
  ((charLabels labels).map fun l => l.1.count d + l.2.count d).sum

theorem count_labelText {d : Char} (hd : d ∉ punctuation) (l : List Char × List Char) :
    (labelText l).count d = l.1.count d + l.2.count d := by
  have hne : '=' ≠ d ∧ '"' ≠ d := by
    refine ⟨?_, ?_⟩ <;> rintro rfl <;> exact hd (by decide)
  simp [labelText, List.count_append, hne.1, hne.2]

theorem count_labelsText {d : Char} (hd : d ∉ punctuation) (labels : LabelSet) :
    (labelsText labels).count d = labelsCount d labels := by
  have hne : ',' ≠ d ∧ '{' ≠ d ∧ '}' ≠ d := by
    refine ⟨?_, ?_, ?_⟩ <;> rintro rfl <;> exact hd (by decide)
  unfold labelsText
  split_ifs with hnil
  · subst hnil
    rfl
  · have hmap : ((charLabels labels).map labelText).map (·.count d) =
        (charLabels labels).map fun l => l.1.count d + l.2.count d := by
      rw [List.map_map]
      exact List.map_congr_left fun l _ => count_labelText hd l
    have hparts := count_intercalate hne.1 ((charLabels labels).map labelText)
    rw [hmap] at hparts
    rw [List.count_cons, List.count_append, hparts]
    simp [labelsCount, hne.2.1, hne.2.2]

theorem count_sampleLine {d : Char} (hd : d ∉ punctuation) (name : String) (labels : LabelSet)
    (value : List Char) : (sampleLine name labels value).count d =
      name.toList.count d + labelsCount d labels + value.count d := by
  have hne : ' ' ≠ d := by
    rintro rfl
    exact hd (by decide)
  unfold sampleLine
  rw [List.count_append, List.count_append, count_labelsText hd, List.count_cons]
  simp [hne]

theorem count_name {name : List Char} (h : isName name = true) {d : Char}
    (hd : nameChar d = false) : name.count d = 0 := by
  rw [List.count_eq_zero]
  intro hin
  cases name with
  | nil => cases hin
  | cons c cs =>
    rw [isName, Bool.and_eq_true, List.all_eq_true] at h
    have hstart : nameStart d = false := by
      have hor := hd
      rw [nameChar, Bool.or_eq_false_iff] at hor
      exact hor.1
    rcases List.mem_cons.mp hin with rfl | hmem
    · exact ne_of_holds hstart h.1 rfl
    · exact ne_of_holds hd (h.2 d hmem) rfl

theorem count_value {value : List Char} (h : floats.isFloat value = true) {d : Char}
    (hd : d.isAlphanum = false) (hother : d ∉ ['+', '-', '.', '_']) : value.count d = 0 :=
  List.count_eq_zero.mpr (not_mem_of_isFloat h hd hother)

theorem count_labelName {l : List Char} (h : isLabelName l = true) {d : Char}
    (hd : labelChar d = false) : l.count d = 0 := by
  rw [List.count_eq_zero]
  intro hin
  cases l with
  | nil => cases hin
  | cons c cs =>
    rw [isLabelName, Bool.and_eq_true, List.all_eq_true] at h
    have hstart : labelStart d = false := by
      have hor := hd
      rw [labelChar, Bool.or_eq_false_iff] at hor
      exact hor.1
    rcases List.mem_cons.mp hin with rfl | hmem
    · exact ne_of_holds hstart h.1 rfl
    · exact ne_of_holds hd (h.2 d hmem) rfl

theorem newline_labels {labels : LabelSet} (h : Writable (charLabels labels)) :
    labelsCount '\n' labels = 0 := by
  unfold labelsCount
  rw [List.sum_eq_zero_iff_forall_eq_nat]
  intro n hn
  obtain ⟨l, hl, rfl⟩ := List.mem_map.mp hn
  obtain ⟨hname, hclean⟩ := h l hl
  rw [count_labelName hname (by decide), List.count_eq_zero.mpr fun hin => (hclean _ hin).2.2 rfl]

theorem parse_sampleLine {name : String} {labels : LabelSet} {value : List Char}
    (hname : isName name.toList = true) (hlabels : labels ≠ [] → Writable (charLabels labels))
    (hvalue : floats.isFloat value = true) :
    parseLine floats.isFloat (sampleLine name labels value) =
      some (some (sampleOf name labels value)) := by
  by_cases hnil : labels = []
  · subst hnil
    have hline : sampleLine name [] value = name.toList ++ ' ' :: value := by
      simp [sampleLine, labelsText]
    rw [hline, parseLine_plain hname (valueText_of_isFloat hvalue) hvalue]
    rfl
  · have hne : charLabels labels ≠ [] := by simpa [charLabels] using hnil
    have hline : sampleLine name labels value = name.toList ++
        '{' :: ([','].intercalate ((charLabels labels).map labelText) ++ '}' :: ' ' :: value) := by
      simp [sampleLine, labelsText, hnil]
    rw [hline, parseLine_labelled hname (hlabels hnil) hne (valueText_of_isFloat hvalue) hvalue]
    rfl

theorem reads_sample {name : String} {labels : LabelSet} {value : List Char}
    (hname : isName name.toList = true) (hlabels : Writable (charLabels labels))
    (hvalue : floats.isFloat value = true) :
    Reads floats.isFloat [sampleLine name labels value] [sampleOf name labels value] := by
  refine reads_line ?_ (parse_sampleLine hname (fun _ => hlabels) hvalue)
  rw [← List.count_eq_zero, count_sampleLine (by decide), count_name hname (by decide),
    newline_labels hlabels, count_value hvalue (by decide) (by decide)]

/-- What the constants of a section must be. -/
def headerOk (name help type : String) : Bool :=
  isName name.toList && commentOk (" HELP ".toList ++ name.toList ++ ' ' :: help.toList) &&
    commentOk (" TYPE ".toList ++ name.toList ++ ' ' :: type.toList) &&
    (header name help type).all fun line => line.count '\n' = 0 && line.count '\\' = 0

theorem headerOk_spec {name help type : String} (h : headerOk name help type = true) :
    isName name.toList = true ∧ Reads floats.isFloat (header name help type) [] ∧
      ((header name help type).map (·.count '\\')).sum = 0 := by
  simp only [headerOk, Bool.and_eq_true, List.all_eq_true, decide_eq_true_eq] at h
  obtain ⟨⟨⟨hname, hhelp⟩, htype⟩, hlines⟩ := h
  have hread : ∀ {text : List Char}, '#' :: text ∈ header name help type →
      commentOk text = true → Reads floats.isFloat ['#' :: text] [] := fun hin hok =>
    reads_line (List.count_eq_zero.mp (hlines _ hin).1) (parseLine_comment hok)
  refine ⟨hname, ?_, ?_⟩
  · exact (hread List.mem_cons_self hhelp).append
      (hread (List.mem_cons_of_mem _ List.mem_cons_self) htype)
  · rw [List.sum_eq_zero_iff_forall_eq_nat]
    intro n hn
    obtain ⟨line, hline, rfl⟩ := List.mem_map.mp hn
    exact (hlines line hline).2

theorem reads_gauge {name help : String} {value : List Char}
    (hvalue : floats.isFloat value = true) (h : headerOk name help "gauge" = true) :
    Reads floats.isFloat (gauge name help value) [sampleOf name [] value] := by
  obtain ⟨hname, hheader, -⟩ := headerOk_spec h
  exact hheader.append (reads_sample hname nofun hvalue)

/-- Every label set of a dictionary can be read back. -/
def AllWritable {α : Type} (d : List (LabelSet × α)) : Prop :=
  ∀ e ∈ d, Writable (charLabels e.1)

def counterSamples (name : String) (counts : List (LabelSet × ℕ)) : List Sample :=
  (counts.mergeSort fun a b => labelSetLe a.1 b.1).map fun e => sampleOf name e.1 (natText e.2)

theorem reads_counter {name : String} (hname : isName name.toList = true)
    {counts : List (LabelSet × ℕ)} (h : AllWritable counts) :
    Reads floats.isFloat (counterLines name counts) (counterSamples name counts) := by
  unfold counterLines counterSamples
  rw [List.map_eq_flatMap, List.map_eq_flatMap]
  refine Reads.flatMap fun e he => ?_
  exact reads_sample hname (h e (List.mem_mergeSort.mp he)) (natText_isFloat floats e.2)

variable (floats) in
def histogramSamples (name : String) (bounds : List (ℚ × String))
    (hist : List (LabelSet × HistogramState)) : List Sample :=
  (hist.mergeSort fun a b => labelSetLe a.1 b.1).flatMap fun e =>
    (bounds.map fun b =>
      sampleOf (name ++ "_bucket") (e.1 ++ [("le", b.2)]) (natText (bucketCount e.2 b.1))) ++
    [sampleOf (name ++ "_bucket") (e.1 ++ [("le", "+Inf")]) (natText e.2.countValue),
      sampleOf (name ++ "_sum") e.1 (floats.sumText e.2.sumValue),
      sampleOf (name ++ "_count") e.1 (natText e.2.countValue)]

theorem writable_le {labels : LabelSet} (h : Writable (charLabels labels)) (le : String)
    (hle : Clean le.toList) : Writable (charLabels (labels ++ [("le", le)])) := by
  have hsplit : charLabels (labels ++ [("le", le)]) =
      charLabels labels ++ [("le".toList, le.toList)] := List.map_append
  have hname : isLabelName "le".toList = true := by decide
  rw [hsplit]
  intro l hl
  rcases List.mem_append.mp hl with hl | hl
  · exact h l hl
  · rw [List.mem_singleton.mp hl]
    exact ⟨hname, hle⟩

theorem reads_histogram {name : String} {bounds : List (ℚ × String)}
    (hbucket : isName (name ++ "_bucket").toList = true)
    (hsum : isName (name ++ "_sum").toList = true)
    (hcount : isName (name ++ "_count").toList = true) (hbounds : ∀ b ∈ bounds, Clean b.2.toList)
    {hist : List (LabelSet × HistogramState)} (h : AllWritable hist) :
    Reads floats.isFloat (histogramLines floats name bounds hist)
      (histogramSamples floats name bounds hist) := by
  refine Reads.flatMap fun e he => ?_
  have hw := h e (List.mem_mergeSort.mp he)
  refine Reads.append ?_ ?_
  · rw [List.map_eq_flatMap, List.map_eq_flatMap]
    refine Reads.flatMap fun b hb => ?_
    exact reads_sample hbucket (writable_le hw b.2 (hbounds b hb)) (natText_isFloat floats _)
  · have hinf := reads_sample hbucket (writable_le hw "+Inf" (by decide))
      (natText_isFloat floats e.2.countValue)
    have hsum' := reads_sample hsum hw (floats.sum_isFloat e.2.sumValue)
    have hcount' := reads_sample hcount hw (natText_isFloat floats e.2.countValue)
    exact hinf.append (hsum'.append hcount')

/-! ## The page as it is read -/

variable (floats) in
def pageSamples (c : Collector) (g : Gauges) : List Sample :=
  [sampleOf "imagegen_uptime_seconds" [] (floats.fixed3 g.uptimeS)] ++
  counterSamples "imagegen_http_requests_total" c.httpRequests ++
  histogramSamples floats "imagegen_http_request_duration_seconds" httpBucketsMs c.httpHist ++
  counterSamples "imagegen_binary_requests_total" c.binaryRequests ++
  histogramSamples floats "imagegen_binary_request_duration_seconds" binaryBucketsMs
    c.binaryHist ++
  counterSamples "imagegen_job_events_total" (jobCounts c) ++
  [sampleOf "imagegen_queue_depth" [] (intText g.queueDepth),
    sampleOf "imagegen_worker_concurrency" [] (intText g.workerConcurrency),
    sampleOf "imagegen_active_jobs" [] (intText g.activeJobs),
    sampleOf "imagegen_comfy_timeout_window_count" [] (natText c.jobs.timeoutEvents.length),
    sampleOf "imagegen_comfy_timeout_alert_triggered" []
      (natText (if timeoutAlertThreshold ≤ c.jobs.timeoutEvents.length then 1 else 0))]

/-- Every label set of a collector can be read back. -/
structure Writes (c : Collector) : Prop where
  httpRequests : AllWritable c.httpRequests
  httpHist : AllWritable c.httpHist
  binaryRequests : AllWritable c.binaryRequests
  binaryHist : AllWritable c.binaryHist
  jobs : AllWritable (jobCounts c)

theorem reads_page {c : Collector} (h : Writes c) (g : Gauges) :
    Reads floats.isFloat (pageLines floats c g) (pageSamples floats c g) := by
  have hheader : ∀ {name help type : String}, headerOk name help type = true →
      Reads floats.isFloat (header name help type) [] := fun hok => (headerOk_spec hok).2.1
  have hhttpB : ∀ b ∈ httpBucketsMs, Clean b.2.toList := by decide
  have hbinaryB : ∀ b ∈ binaryBucketsMs, Clean b.2.toList := by decide
  have huptime : Reads floats.isFloat (gauge "imagegen_uptime_seconds"
      "Process uptime in seconds." (floats.fixed3 g.uptimeS)) _ :=
    reads_gauge (floats.fixed3_isFloat g.uptimeS) (by decide +kernel)
  have hhttp : Reads floats.isFloat
      (counterLines "imagegen_http_requests_total" c.httpRequests) _ :=
    reads_counter (by decide +kernel) h.httpRequests
  have hhttpHist : Reads floats.isFloat (histogramLines floats
      "imagegen_http_request_duration_seconds" httpBucketsMs c.httpHist) _ :=
    reads_histogram (by decide +kernel) (by decide +kernel) (by decide +kernel) hhttpB h.httpHist
  have hbinary : Reads floats.isFloat
      (counterLines "imagegen_binary_requests_total" c.binaryRequests) _ :=
    reads_counter (by decide +kernel) h.binaryRequests
  have hbinaryHist : Reads floats.isFloat (histogramLines floats
      "imagegen_binary_request_duration_seconds" binaryBucketsMs c.binaryHist) _ :=
    reads_histogram (by decide +kernel) (by decide +kernel) (by decide +kernel) hbinaryB
      h.binaryHist
  have hjobs : Reads floats.isFloat (counterLines "imagegen_job_events_total" (jobCounts c)) _ :=
    reads_counter (by decide +kernel) h.jobs
  have hqueue : Reads floats.isFloat (gauge "imagegen_queue_depth" "Current queue depth."
      (intText g.queueDepth)) _ :=
    reads_gauge (floats.int_isFloat g.queueDepth) (by decide +kernel)
  have hconcurrency : Reads floats.isFloat (gauge "imagegen_worker_concurrency"
      "Configured worker concurrency." (intText g.workerConcurrency)) _ :=
    reads_gauge (floats.int_isFloat g.workerConcurrency) (by decide +kernel)
  have hactive : Reads floats.isFloat (gauge "imagegen_active_jobs"
      "Current active jobs (queued/running)." (intText g.activeJobs)) _ :=
    reads_gauge (floats.int_isFloat g.activeJobs) (by decide +kernel)
  have hwindow : Reads floats.isFloat (gauge "imagegen_comfy_timeout_window_count"
      "Timeouts in alert window." (natText c.jobs.timeoutEvents.length)) _ :=
    reads_gauge (natText_isFloat floats _) (by decide +kernel)
  have halert : Reads floats.isFloat (gauge "imagegen_comfy_timeout_alert_triggered"
      "Timeout alert threshold reached."
      (natText (if timeoutAlertThreshold ≤ c.jobs.timeoutEvents.length then 1 else 0))) _ :=
    reads_gauge (natText_isFloat floats _) (by decide +kernel)
  have hpage : Reads floats.isFloat (pageLines floats c g) _ :=
    huptime.append (hheader (by decide +kernel)) |>.append hhttp
      |>.append (hheader (by decide +kernel)) |>.append hhttpHist
      |>.append (hheader (by decide +kernel)) |>.append hbinary
      |>.append (hheader (by decide +kernel)) |>.append hbinaryHist
      |>.append (hheader (by decide +kernel)) |>.append hjobs
      |>.append hqueue |>.append hconcurrency |>.append hactive |>.append hwindow
      |>.append halert
  simpa only [pageSamples, List.append_nil, List.append_assoc, List.cons_append,
    List.nil_append] using hpage

/-! ## The families of the page -/

theorem family_append (first second : List Sample) (name : String) :
    family (first ++ second) name = family first name ++ family second name := by
  simp [family, List.filter_append]

theorem family_sampleOf (n name : String) (labels : LabelSet) (value : List Char) :
    family [sampleOf n labels value] name =
      if n = name then [(charLabels labels, value)] else [] := by
  unfold family sampleOf
  by_cases h : n = name
  · simp [h]
  · have hne : n.toList ≠ name.toList := fun heq => h (String.ext heq)
    simp [h, hne]

theorem family_flatMap {β : Type} (as : List β) (f : β → List Sample) (name : String) :
    family (as.flatMap f) name = as.flatMap fun a => family (f a) name := by
  induction as with
  | nil => rfl
  | cons a rest ih => rw [List.flatMap_cons, family_append, ih, List.flatMap_cons]

theorem family_map {β : Type} (as : List β) (n name : String) (f : β → LabelSet)
    (g : β → List Char) :
    family (as.map fun a => sampleOf n (f a) (g a)) name =
      if n = name then as.map fun a => (charLabels (f a), g a) else [] := by
  rw [List.map_eq_flatMap, family_flatMap]
  simp only [family_sampleOf]
  split_ifs
  · rw [List.map_eq_flatMap]
  · simp

theorem family_counter (n : String) (counts : List (LabelSet × ℕ)) (name : String) :
    (family (counterSamples n counts) name).Perm
      (if n = name then counts.map fun e => (charLabels e.1, natText e.2) else []) := by
  unfold counterSamples
  rw [family_map]
  split_ifs
  · exact (List.mergeSort_perm _ _).map _
  · exact .refl _

variable (floats) in
/-- The entries of one label set in a family of its histogram. -/
def histogramFamily (n : String) (bounds : List (ℚ × String)) (name : String)
    (e : LabelSet × HistogramState) : List (Labels × List Char) :=
  (if n ++ "_bucket" = name then
    bounds.map (fun b => (charLabels (e.1 ++ [("le", b.2)]), natText (bucketCount e.2 b.1))) ++
      [(charLabels (e.1 ++ [("le", "+Inf")]), natText e.2.countValue)]
   else []) ++
  (if n ++ "_sum" = name then [(charLabels e.1, floats.sumText e.2.sumValue)] else []) ++
  if n ++ "_count" = name then [(charLabels e.1, natText e.2.countValue)] else []

theorem family_histogram (n : String) (bounds : List (ℚ × String))
    (hist : List (LabelSet × HistogramState)) (name : String) :
    (family (histogramSamples floats n bounds hist) name).Perm
      (hist.flatMap (histogramFamily floats n bounds name)) := by
  unfold histogramSamples
  rw [family_flatMap]
  have hone : ∀ e : LabelSet × HistogramState, family ((bounds.map fun b =>
      sampleOf (n ++ "_bucket") (e.1 ++ [("le", b.2)]) (natText (bucketCount e.2 b.1))) ++
      [sampleOf (n ++ "_bucket") (e.1 ++ [("le", "+Inf")]) (natText e.2.countValue),
        sampleOf (n ++ "_sum") e.1 (floats.sumText e.2.sumValue),
        sampleOf (n ++ "_count") e.1 (natText e.2.countValue)]) name =
      histogramFamily floats n bounds name e := by
    intro e
    have hthree : ∀ a b c : Sample, [a, b, c] = [a] ++ ([b] ++ [c]) := fun _ _ _ => rfl
    rw [family_append, family_map, hthree, family_append, family_append, family_sampleOf,
      family_sampleOf, family_sampleOf]
    unfold histogramFamily
    split_ifs <;> simp
  simp only [hone]
  exact (List.mergeSort_perm _ _).flatMap_right _

theorem family_page (c : Collector) (g : Gauges) {name : String}
    (hgauge : name ∉ ["imagegen_uptime_seconds", "imagegen_queue_depth",
      "imagegen_worker_concurrency", "imagegen_active_jobs", "imagegen_comfy_timeout_window_count",
      "imagegen_comfy_timeout_alert_triggered"]) :
    (family (pageSamples floats c g) name).Perm
      ((if "imagegen_http_requests_total" = name then
          c.httpRequests.map fun e => (charLabels e.1, natText e.2) else []) ++
        c.httpHist.flatMap (histogramFamily floats "imagegen_http_request_duration_seconds"
          httpBucketsMs name) ++
        (if "imagegen_binary_requests_total" = name then
          c.binaryRequests.map fun e => (charLabels e.1, natText e.2) else []) ++
        c.binaryHist.flatMap (histogramFamily floats "imagegen_binary_request_duration_seconds"
          binaryBucketsMs name) ++
        (if "imagegen_job_events_total" = name then
          (jobCounts c).map fun e => (charLabels e.1, natText e.2) else [])) := by
  have hother : ∀ n labels value, n ≠ name → family [sampleOf n labels value] name = [] :=
    fun n labels value hne => by rw [family_sampleOf, if_neg hne]
  have hfive : ∀ a b c d e : Sample, [a, b, c, d, e] = [a] ++ ([b] ++ ([c] ++ ([d] ++ [e]))) :=
    fun _ _ _ _ _ => rfl
  simp only [List.mem_cons, List.not_mem_nil, or_false, not_or] at hgauge
  obtain ⟨h1, h2, h3, h4, h5, h6⟩ := hgauge
  unfold pageSamples
  rw [hfive]
  simp only [family_append]
  rw [hother _ _ _ (Ne.symm h1), hother _ _ _ (Ne.symm h2), hother _ _ _ (Ne.symm h3),
    hother _ _ _ (Ne.symm h4), hother _ _ _ (Ne.symm h5), hother _ _ _ (Ne.symm h6)]
  simp only [List.nil_append, List.append_nil]
  exact ((((family_counter _ _ _).append (family_histogram _ _ _ _)).append
    (family_counter _ _ _)).append (family_histogram _ _ _ _)).append (family_counter _ _ _)

theorem flatMap_none {β γ : Type} (as : List β) : as.flatMap (fun _ => ([] : List γ)) = [] := by
  rw [List.flatMap_eq_nil_iff]
  exact fun _ _ => rfl

theorem family_http (c : Collector) (g : Gauges) :
    (family (pageSamples floats c g) "imagegen_http_requests_total").Perm
      (c.httpRequests.map fun e => (charLabels e.1, natText e.2)) := by
  have h : (family (pageSamples floats c g) "imagegen_http_requests_total").Perm _ :=
    family_page c g (by decide)
  unfold histogramFamily at h
  simpa [flatMap_none] using h

theorem family_binary (c : Collector) (g : Gauges) :
    (family (pageSamples floats c g) "imagegen_binary_requests_total").Perm
      (c.binaryRequests.map fun e => (charLabels e.1, natText e.2)) := by
  have h : (family (pageSamples floats c g) "imagegen_binary_requests_total").Perm _ :=
    family_page c g (by decide)
  unfold histogramFamily at h
  simpa [flatMap_none] using h

theorem family_jobs (c : Collector) (g : Gauges) :
    (family (pageSamples floats c g) "imagegen_job_events_total").Perm
      ((jobCounts c).map fun e => (charLabels e.1, natText e.2)) := by
  have h : (family (pageSamples floats c g) "imagegen_job_events_total").Perm _ :=
    family_page c g (by decide)
  unfold histogramFamily at h
  simpa [flatMap_none] using h

/-- What the buckets of a dictionary of histograms are read as. -/
def bucketEntries (bounds : List (ℚ × String)) (hist : List (LabelSet × HistogramState)) :
    List (Labels × List Char) :=
  hist.flatMap fun e =>
    bounds.map (fun b => (charLabels (e.1 ++ [("le", b.2)]), natText (bucketCount e.2 b.1))) ++
      [(charLabels (e.1 ++ [("le", "+Inf")]), natText e.2.countValue)]

theorem family_httpBucket (c : Collector) (g : Gauges) :
    (family (pageSamples floats c g) "imagegen_http_request_duration_seconds_bucket").Perm
      (bucketEntries httpBucketsMs c.httpHist) := by
  have h : (family (pageSamples floats c g)
      "imagegen_http_request_duration_seconds_bucket").Perm _ := family_page c g (by decide)
  unfold histogramFamily at h
  unfold bucketEntries
  simpa [flatMap_none] using h

theorem family_httpCount (c : Collector) (g : Gauges) :
    (family (pageSamples floats c g) "imagegen_http_request_duration_seconds_count").Perm
      (c.httpHist.map fun e => (charLabels e.1, natText e.2.countValue)) := by
  have h : (family (pageSamples floats c g)
      "imagegen_http_request_duration_seconds_count").Perm _ := family_page c g (by decide)
  unfold histogramFamily at h
  rw [List.map_eq_flatMap]
  simpa [flatMap_none] using h

theorem family_binaryBucket (c : Collector) (g : Gauges) :
    (family (pageSamples floats c g) "imagegen_binary_request_duration_seconds_bucket").Perm
      (bucketEntries binaryBucketsMs c.binaryHist) := by
  have h : (family (pageSamples floats c g)
      "imagegen_binary_request_duration_seconds_bucket").Perm _ := family_page c g (by decide)
  unfold histogramFamily at h
  unfold bucketEntries
  simpa [flatMap_none] using h

theorem family_binaryCount (c : Collector) (g : Gauges) :
    (family (pageSamples floats c g) "imagegen_binary_request_duration_seconds_count").Perm
      (c.binaryHist.map fun e => (charLabels e.1, natText e.2.countValue)) := by
  have h : (family (pageSamples floats c g)
      "imagegen_binary_request_duration_seconds_count").Perm _ := family_page c g (by decide)
  unfold histogramFamily at h
  rw [List.map_eq_flatMap]
  simpa [flatMap_none] using h

end Sections

/-! ## Pages of clean texts -/

theorem bucketCounts_pairwise {bounds : List (ℚ × String)}
    (h : (bounds.map (·.1)).Pairwise (· ≤ ·)) (durations : List ℚ) :
    (bucketCounts bounds durations).Pairwise fun a b => a.2 ≤ b.2 := by
  unfold bucketCounts
  rw [List.pairwise_append]
  refine ⟨?_, List.pairwise_singleton _ _, ?_⟩
  · rw [List.pairwise_map] at h ⊢
    refine h.imp fun hab => ?_
    refine List.countP_mono_left fun d _ hd => ?_
    simp only [decide_eq_true_eq] at hd ⊢
    exact hd.trans hab
  · intro a ha b hb
    obtain ⟨bound, -, rfl⟩ := List.mem_map.mp ha
    rw [List.mem_singleton.mp hb]
    exact List.countP_le_length

/-- The samples of a dictionary of histograms that grouped these observations. -/
theorem bucketEntries_perm {bounds : List (ℚ × String)} (hnodup : (bounds.map (·.1)).Nodup)
    (observed : List (LabelSet × ℚ)) :
    (bucketEntries bounds (grouped bounds observed)).Perm
      ((observed.map (·.1)).dedup.flatMap fun labels =>
        (bucketCounts bounds (durationsOf observed labels)).map fun b =>
          (charLabels (labels ++ [("le", b.1)]), natText b.2)) := by
  have hperm := (grouped_perm bounds observed).flatMap_right fun e =>
    bounds.map (fun b => (charLabels (e.1 ++ [("le", b.2)]), natText (bucketCount e.2 b.1))) ++
      [(charLabels (e.1 ++ [("le", "+Inf")]), natText e.2.countValue)]
  refine hperm.trans ?_
  rw [List.flatMap_map]
  refine List.Perm.of_eq (List.flatMap_congr fun labels _ => ?_)
  unfold bucketCounts
  rw [List.map_append, List.map_map, (sums_histOf _ _).2]
  congr 1
  refine List.map_congr_left fun b hb => ?_
  rw [Function.comp, bucketCount_histOf hnodup (List.mem_map_of_mem hb)]

theorem countEntries_perm (bounds : List (ℚ × String)) (observed : List (LabelSet × ℚ)) :
    ((grouped bounds observed).map fun e => (charLabels e.1, natText e.2.countValue)).Perm
      ((observed.map (·.1)).dedup.map fun labels =>
        (charLabels labels, natText (durationsOf observed labels).length)) := by
  refine ((grouped_perm bounds observed).map _).trans ?_
  rw [List.map_map]
  refine List.Perm.of_eq (List.map_congr_left fun labels _ => ?_)
  rw [Function.comp, (sums_histOf _ _).2]

theorem countedEntries_perm (keys : List LabelSet) :
    ((tally keys).map fun e => (charLabels e.1, natText e.2)).Perm
      (keys.dedup.map fun labels => (charLabels labels, natText (keys.countP (· = labels)))) := by
  have hperm := (tally_perm keys).map fun e => (charLabels e.1, natText e.2)
  simpa only [List.map_map, Function.comp_def] using hperm

section Clean

variable {floats : Floats}

theorem clean_intText (floats : Floats) (i : ℤ) : Clean (intText i) := by
  intro c hc
  rcases (floats.chars _ (floats.int_isFloat i)).2 c hc with halnum | rfl | rfl | rfl | rfl
  · exact ⟨ne_of_holds (by decide) halnum, ne_of_holds (by decide) halnum,
      ne_of_holds (by decide) halnum⟩
  all_goals exact ⟨by decide, by decide, by decide⟩

theorem charLabels_http (method path : String) (statusCode : ℤ) :
    charLabels (httpLabels method path statusCode) = [("method".toList, method.toList),
      ("path".toList, path.toList), ("status".toList, intText statusCode)] := by
  rw [httpLabels_eq]
  rfl

theorem charLabels_status (status : String) :
    charLabels (statusLabels status) = [("status".toList, status.toList)] := by
  rw [statusLabels_eq]
  rfl

theorem writable_http (floats : Floats) {method path : String} (hmethod : Clean method.toList)
    (hpath : Clean path.toList) (statusCode : ℤ) :
    Writable (charLabels (httpLabels method path statusCode)) := by
  have hnames : isLabelName "method".toList = true ∧ isLabelName "path".toList = true ∧
      isLabelName "status".toList = true := by decide
  rw [charLabels_http]
  refine List.forall_mem_cons.mpr ⟨⟨hnames.1, hmethod⟩, List.forall_mem_cons.mpr
    ⟨⟨hnames.2.1, hpath⟩, List.forall_mem_cons.mpr ⟨⟨hnames.2.2, ?_⟩, nofun⟩⟩⟩
  exact clean_intText floats statusCode

theorem writable_status {status : String} (h : Clean status.toList) :
    Writable (charLabels (statusLabels status)) := by
  have hname : isLabelName "status".toList = true := by decide
  rw [charLabels_status]
  exact List.forall_mem_cons.mpr ⟨⟨hname, h⟩, nofun⟩

theorem forall_of_perm {α : Type} {d : List (LabelSet × α)} {keys : List LabelSet}
    {f : LabelSet → α} (h : d.Perm (keys.dedup.map fun k => (k, f k))) {P : LabelSet → Prop}
    (hkeys : ∀ k ∈ keys, P k) : ∀ e ∈ d, P e.1 := by
  intro e he
  obtain ⟨k, hk, rfl⟩ := List.mem_map.mp (h.mem_iff.mp he)
  exact hkeys k (List.mem_dedup.mp hk)

theorem jobCounts_perm (clock : ℕ → ℚ) (calls : List Call) :
    (jobCounts (collect clock calls)).Perm
      (((calls.filterMap Call.jobStatus).map statusLabels).dedup.map fun labels =>
        (labels, ((calls.filterMap Call.jobStatus).map statusLabels).countP (· = labels))) := by
  unfold jobCounts
  rw [(requests_collect clock calls).2.2, List.dedup_map_of_injective statusLabels_injective,
    List.map_map]
  refine ((tally_perm _).map _).trans ?_
  rw [List.map_map]
  refine List.Perm.of_eq (List.map_congr_left fun status _ => ?_)
  simp only [Function.comp, List.countP_map]
  congr 2
  funext s
  simp [statusLabels_injective.eq_iff]

/-- The keys that the calls recorded. -/
def httpKeys (calls : List Call) : List LabelSet := (calls.filterMap Call.httpEvent).map (·.1)

def binaryKeys (calls : List Call) : List LabelSet := (calls.filterMap Call.binaryEvent).map (·.1)

def jobKeys (calls : List Call) : List LabelSet :=
  (calls.filterMap Call.jobStatus).map statusLabels

theorem mem_httpKeys {calls : List Call} {labels : LabelSet} :
    labels ∈ httpKeys calls ↔ ∃ method path statusCode durationMs,
      .http method path statusCode durationMs ∈ calls ∧
        httpLabels method path statusCode = labels := by
  simp only [httpKeys, List.mem_map, List.mem_filterMap]
  constructor
  · rintro ⟨e, ⟨call, hcall, hevent⟩, rfl⟩
    cases call with
    | http method path statusCode durationMs =>
      cases hevent
      exact ⟨method, path, statusCode, durationMs, hcall, rfl⟩
    | binary status durationMs => cases hevent
    | job status errorCode => cases hevent
  · rintro ⟨method, path, statusCode, durationMs, hcall, rfl⟩
    exact ⟨_, ⟨_, hcall, rfl⟩, rfl⟩

theorem mem_binaryKeys {calls : List Call} {labels : LabelSet} :
    labels ∈ binaryKeys calls ↔
      ∃ status durationMs, .binary status durationMs ∈ calls ∧ statusLabels status = labels := by
  simp only [binaryKeys, List.mem_map, List.mem_filterMap]
  constructor
  · rintro ⟨e, ⟨call, hcall, hevent⟩, rfl⟩
    cases call with
    | http method path statusCode durationMs => cases hevent
    | binary status durationMs =>
      cases hevent
      exact ⟨status, durationMs, hcall, rfl⟩
    | job status errorCode => cases hevent
  · rintro ⟨status, durationMs, hcall, rfl⟩
    exact ⟨_, ⟨_, hcall, rfl⟩, rfl⟩

theorem mem_jobKeys {calls : List Call} {labels : LabelSet} :
    labels ∈ jobKeys calls ↔
      ∃ status errorCode, .job status errorCode ∈ calls ∧ statusLabels status = labels := by
  simp only [jobKeys, List.mem_map, List.mem_filterMap]
  constructor
  · rintro ⟨status, ⟨call, hcall, hevent⟩, rfl⟩
    cases call with
    | http method path statusCode durationMs => cases hevent
    | binary status durationMs => cases hevent
    | job status errorCode =>
      cases hevent
      exact ⟨status, errorCode, hcall, rfl⟩
  · rintro ⟨status, errorCode, hcall, rfl⟩
    exact ⟨_, ⟨_, hcall, rfl⟩, rfl⟩

theorem writes_collect {calls : List Call} (floats : Floats) (clock : ℕ → ℚ)
    (h : ∀ call ∈ calls, ∀ text ∈ call.texts, Clean text.toList) :
    Writes (collect clock calls) := by
  have hhttp : ∀ labels ∈ httpKeys calls, Writable (charLabels labels) := by
    intro labels hin
    obtain ⟨method, path, statusCode, durationMs, hcall, rfl⟩ := mem_httpKeys.mp hin
    have htexts := h _ hcall
    exact writable_http floats (htexts method (by simp [Call.texts]))
      (htexts path (by simp [Call.texts])) statusCode
  have hbinary : ∀ labels ∈ binaryKeys calls, Writable (charLabels labels) := by
    intro labels hin
    obtain ⟨status, durationMs, hcall, rfl⟩ := mem_binaryKeys.mp hin
    exact writable_status (h _ hcall status (by simp [Call.texts]))
  have hjobs : ∀ labels ∈ jobKeys calls, Writable (charLabels labels) := by
    intro labels hin
    obtain ⟨status, errorCode, hcall, rfl⟩ := mem_jobKeys.mp hin
    exact writable_status (h _ hcall status (by simp [Call.texts]))
  obtain ⟨hreq, hbin, -⟩ := requests_collect clock calls
  obtain ⟨hhist, hbinhist⟩ := hist_collect clock calls
  constructor
  · rw [hreq]
    exact forall_of_perm (tally_perm _) hhttp
  · rw [hhist]
    exact forall_of_perm (grouped_perm _ _) hhttp
  · rw [hbin]
    exact forall_of_perm (tally_perm _) hbinary
  · rw [hbinhist]
    exact forall_of_perm (grouped_perm _ _) hbinary
  · exact forall_of_perm (jobCounts_perm clock calls) hjobs

theorem pageLines_ne_nil (c : Collector) (g : Gauges) : pageLines floats c g ≠ [] := by
  unfold pageLines gauge header
  simp

theorem holds_of_clean {clock : ℕ → ℚ} {calls : List Call} (g : Gauges)
    (h : ∀ call ∈ calls, ∀ text ∈ call.texts, Clean text.toList) :
    ExpositionHolds floats clock calls g := by
  obtain ⟨hreq, hbin, hjob⟩ := requests_collect clock calls
  obtain ⟨hhist, hbinhist⟩ := hist_collect clock calls
  refine ⟨pageSamples floats (collect clock calls) g,
    parseText_of_reads (pageLines_ne_nil _ g) (reads_page (writes_collect floats clock h) g),
    ?_, ⟨?_, ?_, ?_⟩, ?_, ⟨?_, ?_, ?_⟩, ?_⟩
  · refine (family_http _ g).trans ?_
    rw [hreq]
    exact countedEntries_perm _
  · refine (family_httpBucket _ g).trans ?_
    rw [hhist]
    exact bucketEntries_perm (by decide) _
  · refine (family_httpCount _ g).trans ?_
    rw [hhist]
    exact countEntries_perm _ _
  · exact fun labels => bucketCounts_pairwise (by decide) _
  · refine (family_binary _ g).trans ?_
    rw [hbin]
    exact countedEntries_perm _
  · refine (family_binaryBucket _ g).trans ?_
    rw [hbinhist]
    exact bucketEntries_perm (by decide) _
  · refine (family_binaryCount _ g).trans ?_
    rw [hbinhist]
    exact countEntries_perm _ _
  · exact fun labels => bucketCounts_pairwise (by decide) _
  · refine (family_jobs _ g).trans ?_
    have hperm := (jobCounts_perm clock calls).map fun e => (charLabels e.1, natText e.2)
    simpa only [List.map_map, Function.comp_def] using hperm

end Clean

/-! ## What the backslashes of a page pay for -/

section Backslashes

variable {floats : Floats}

def keysCost (keys : List LabelSet) : ℕ := (keys.dedup.map fun k => labelsCost (charLabels k)).sum

def keysBackslashes (keys : List LabelSet) : ℕ := (keys.dedup.map (labelsCount '\\')).sum

theorem sum_of_perm {α : Type} {d : List (LabelSet × α)} {keys : List LabelSet}
    {f : LabelSet → α} (h : d.Perm (keys.dedup.map fun k => (k, f k))) (w : LabelSet → ℕ) :
    (d.map fun e => w e.1).sum = (keys.dedup.map w).sum := by
  rw [(h.map fun e => w e.1).sum_eq, List.map_map]
  rfl

theorem labelsCount_snoc (d : Char) (labels : LabelSet) (l v : String) :
    labelsCount d (labels ++ [(l, v)]) =
      labelsCount d labels + (l.toList.count d + v.toList.count d) := by
  simp [labelsCount, charLabels]

theorem count_backslash {value : List Char} (h : floats.isFloat value = true) :
    value.count '\\' = 0 := count_value h (by decide) (by decide)

theorem backslashes_sample {name : String} (hname : isName name.toList = true)
    (labels : LabelSet) {value : List Char} (hvalue : floats.isFloat value = true) :
    (sampleLine name labels value).count '\\' = labelsCount '\\' labels := by
  rw [count_sampleLine (by decide), count_name hname (by decide), count_backslash hvalue]
  omega

theorem backslashes_counter (floats : Floats) {name : String} (hname : isName name.toList = true)
    (counts : List (LabelSet × ℕ)) : ((counterLines name counts).map (·.count '\\')).sum =
      (counts.map fun e => labelsCount '\\' e.1).sum := by
  unfold counterLines
  have hline : ∀ e : LabelSet × ℕ,
      (sampleLine name e.1 (natText e.2)).count '\\' = labelsCount '\\' e.1 :=
    fun e => backslashes_sample hname e.1 (natText_isFloat floats e.2)
  simp only [List.map_map, Function.comp_def, hline]
  exact ((List.mergeSort_perm _ _).map _).sum_eq

theorem backslashes_le {labels : LabelSet} {le : String} (hle : le.toList.count '\\' = 0) :
    labelsCount '\\' (labels ++ [("le", le)]) = labelsCount '\\' labels := by
  have hname : "le".toList.count '\\' = 0 := by decide
  rw [labelsCount_snoc, hname, hle]
  omega

theorem backslashes_histogram {name : String} {bounds : List (ℚ × String)}
    (hbucket : isName (name ++ "_bucket").toList = true)
    (hsum : isName (name ++ "_sum").toList = true)
    (hcount : isName (name ++ "_count").toList = true)
    (hbounds : ∀ b ∈ bounds, b.2.toList.count '\\' = 0)
    (hist : List (LabelSet × HistogramState)) :
    ((histogramLines floats name bounds hist).map (·.count '\\')).sum =
      (bounds.length + 3) * (hist.map fun e => labelsCount '\\' e.1).sum := by
  have hone : ∀ e : LabelSet × HistogramState,
      (((bounds.map fun b => sampleLine (name ++ "_bucket") (e.1 ++ [("le", b.2)])
          (natText (bucketCount e.2 b.1))) ++
        [sampleLine (name ++ "_bucket") (e.1 ++ [("le", "+Inf")]) (natText e.2.countValue),
          sampleLine (name ++ "_sum") e.1 (floats.sumText e.2.sumValue),
          sampleLine (name ++ "_count") e.1 (natText e.2.countValue)]).map
            (·.count '\\')).sum = (bounds.length + 3) * labelsCount '\\' e.1 := by
    intro e
    have hinf : "+Inf".toList.count '\\' = 0 := by decide
    have hmap : bounds.map (fun b => (sampleLine (name ++ "_bucket") (e.1 ++ [("le", b.2)])
        (natText (bucketCount e.2 b.1))).count '\\') =
          bounds.map fun _ => labelsCount '\\' e.1 := by
      refine List.map_congr_left fun b hb => ?_
      rw [backslashes_sample hbucket _ (natText_isFloat floats _), backslashes_le (hbounds b hb)]
    rw [List.map_append, List.map_map, List.sum_append]
    simp only [Function.comp_def, hmap, List.map_const', List.sum_replicate, List.map_cons,
      List.map_nil, List.sum_cons, List.sum_nil, nsmul_eq_mul, Nat.cast_id]
    rw [backslashes_sample hbucket _ (natText_isFloat floats _), backslashes_le hinf,
      backslashes_sample hsum _ (floats.sum_isFloat _),
      backslashes_sample hcount _ (natText_isFloat floats _)]
    rw [Nat.add_mul]
    omega
  unfold histogramLines
  rw [List.map_flatMap, List.flatMap_def, List.sum_flatten, List.map_map]
  simp only [Function.comp_def, hone]
  rw [((List.mergeSort_perm hist _).map _).sum_eq, List.sum_map_mul_left]

/-- The constants of the page pay for nothing. -/
theorem backslashes_gauge {name help : String} {value : List Char}
    (hvalue : floats.isFloat value = true) (h : headerOk name help "gauge" = true) :
    ((gauge name help value).map (·.count '\\')).sum = 0 := by
  obtain ⟨hname, -, hheader⟩ := @headerOk_spec floats _ _ _ h
  have hline := backslashes_sample hname [] hvalue
  unfold gauge
  rw [List.map_append, List.sum_append, hheader, List.map_singleton, List.sum_singleton, hline]
  rfl

theorem backslashes_page (c : Collector) (g : Gauges) :
    (renderPrometheus floats c g).count '\\' =
      (c.httpRequests.map fun e => labelsCount '\\' e.1).sum +
        12 * (c.httpHist.map fun e => labelsCount '\\' e.1).sum +
        (c.binaryRequests.map fun e => labelsCount '\\' e.1).sum +
        10 * (c.binaryHist.map fun e => labelsCount '\\' e.1).sum +
        ((jobCounts c).map fun e => labelsCount '\\' e.1).sum := by
  have hheader : ∀ {name help type : String}, headerOk name help type = true →
      ((header name help type).map (·.count '\\')).sum = 0 := fun hok =>
        (@headerOk_spec floats _ _ _ hok).2.2
  unfold renderPrometheus
  rw [count_page]
  unfold pageLines
  simp only [List.map_append, List.sum_append]
  rw [backslashes_gauge (floats.fixed3_isFloat g.uptimeS) (by decide +kernel),
    hheader (by decide +kernel), hheader (by decide +kernel), hheader (by decide +kernel),
    hheader (by decide +kernel), hheader (by decide +kernel),
    backslashes_counter floats (by decide +kernel),
    backslashes_counter floats (by decide +kernel), backslashes_counter floats (by decide +kernel),
    backslashes_histogram (by decide +kernel) (by decide +kernel) (by decide +kernel) (by decide),
    backslashes_histogram (by decide +kernel) (by decide +kernel) (by decide +kernel) (by decide),
    backslashes_gauge (intText_isFloat floats _) (by decide +kernel),
    backslashes_gauge (intText_isFloat floats _) (by decide +kernel),
    backslashes_gauge (intText_isFloat floats _) (by decide +kernel),
    backslashes_gauge (natText_isFloat floats _) (by decide +kernel),
    backslashes_gauge (natText_isFloat floats _) (by decide +kernel)]
  have hbounds : httpBucketsMs.length = 9 ∧ binaryBucketsMs.length = 7 := ⟨rfl, rfl⟩
  rw [hbounds.1, hbounds.2]
  omega

def familyCost (samples : List Sample) (name : String) : ℕ :=
  ((family samples name).map fun e => labelsCost e.1).sum

theorem cost_keyed {samples : List Sample} {name : String} {keys : List LabelSet}
    {f : LabelSet → List Char}
    (h : (family samples name).Perm (keys.dedup.map fun k => (charLabels k, f k))) :
    familyCost samples name = keysCost keys := by
  unfold familyCost keysCost
  rw [(h.map fun e => labelsCost e.1).sum_eq, List.map_map]
  rfl

theorem cost_buckets {samples : List Sample} {name : String} {bounds : List (ℚ × String)}
    {observed : List (LabelSet × ℚ)} (h : HistogramHolds samples name bounds observed) :
    (bounds.length + 1) * keysCost (observed.map (·.1)) ≤
      familyCost samples (name ++ "_bucket") := by
  unfold familyCost keysCost
  rw [(h.buckets.map fun e => labelsCost e.1).sum_eq, List.map_flatMap, List.flatMap_def,
    List.sum_flatten, List.map_map, ← List.sum_map_mul_left]
  refine List.sum_le_sum fun labels _ => ?_
  have hle : ∀ b ∈ bucketCounts bounds (durationsOf observed labels),
      labelsCost (charLabels labels) ≤ labelsCost (charLabels (labels ++ [("le", b.1)])) := by
    intro b _
    have hsplit : charLabels (labels ++ [("le", b.1)]) =
        charLabels labels ++ [("le".toList, b.1.toList)] := List.map_append
    rw [hsplit, labelsCost_snoc]
    omega
  have hlength : (bucketCounts bounds (durationsOf observed labels)).length =
      bounds.length + 1 := by
    simp [bucketCounts]
  have hsum := List.card_nsmul_le_sum ((bucketCounts bounds (durationsOf observed labels)).map
    fun b => labelsCost (charLabels (labels ++ [("le", b.1)]))) (labelsCost (charLabels labels))
    fun n hn => by
      obtain ⟨b, hb, rfl⟩ := List.mem_map.mp hn
      exact hle b hb
  rw [List.length_map, hlength, nsmul_eq_mul, Nat.cast_id] at hsum
  simpa [List.map_map, Function.comp_def] using hsum

theorem cost_page {samples : List Sample} {text : List Char}
    (h : parseText floats.isFloat text = some samples) :
    familyCost samples "imagegen_http_requests_total" +
      familyCost samples ("imagegen_http_request_duration_seconds" ++ "_bucket") +
      familyCost samples ("imagegen_http_request_duration_seconds" ++ "_count") +
      familyCost samples "imagegen_binary_requests_total" +
      familyCost samples ("imagegen_binary_request_duration_seconds" ++ "_bucket") +
      familyCost samples ("imagegen_binary_request_duration_seconds" ++ "_count") +
      familyCost samples "imagegen_job_events_total" ≤ text.count '\\' := by
  have hnames : (["imagegen_http_requests_total",
      "imagegen_http_request_duration_seconds" ++ "_bucket",
      "imagegen_http_request_duration_seconds" ++ "_count", "imagegen_binary_requests_total",
      "imagegen_binary_request_duration_seconds" ++ "_bucket",
      "imagegen_binary_request_duration_seconds" ++ "_count", "imagegen_job_events_total"].map
        String.toList).Nodup := by
    decide +kernel
  have hfamily : ∀ name : String, familyCost samples name =
      ((samples.filter fun s => s.name = name.toList).map fun s => labelsCost s.labels).sum := by
    intro name
    simp only [familyCost, family, List.map_map, Function.comp_def]
  have hall := (cost_families (fun s => labelsCost s.labels) hnames samples).trans
    (cost_parseText h)
  simp only [List.map_cons, List.map_nil, List.sum_cons, List.sum_nil, ← hfamily] at hall
  omega

/-- A backslash in a label value pays for half of its own cost. -/
theorem backslashes_le_cost {labels : LabelSet}
    (h : ∀ l ∈ charLabels labels, l.1.count '\\' = 0) :
    2 * labelsCount '\\' labels ≤ labelsCost (charLabels labels) := by
  unfold labelsCount labelsCost
  rw [← List.sum_map_mul_left]
  refine List.sum_le_sum fun l hl => ?_
  have hvalue := count_le_cost l.2
  rw [h l hl]
  omega

/-- The names of labels are free of backslashes. -/
def PlainNames (keys : List LabelSet) : Prop :=
  ∀ labels ∈ keys, ∀ l ∈ charLabels labels, l.1.count '\\' = 0

theorem backslashes_keys {keys : List LabelSet} (h : PlainNames keys) :
    2 * keysBackslashes keys ≤ keysCost keys := by
  unfold keysBackslashes keysCost
  rw [← List.sum_map_mul_left]
  exact List.sum_le_sum fun labels hin => backslashes_le_cost (h labels (List.mem_dedup.mp hin))

theorem clean_of_keysCost {keys : List LabelSet} (h : keysCost keys = 0) {labels : LabelSet}
    (hin : labels ∈ keys) {l : List Char × List Char} (hl : l ∈ charLabels labels) :
    Clean l.2 := by
  rw [keysCost, List.sum_eq_zero_iff_forall_eq_nat] at h
  have hlabels := h _ (List.mem_map_of_mem (List.mem_dedup.mpr hin))
  rw [labelsCost, List.sum_eq_zero_iff_forall_eq_nat] at hlabels
  exact (clean_iff l.2).mpr (hlabels _ (List.mem_map_of_mem hl))

theorem plainNames_http (calls : List Call) : PlainNames (httpKeys calls) := by
  have hnames : "method".toList.count '\\' = 0 ∧ "path".toList.count '\\' = 0 ∧
      "status".toList.count '\\' = 0 := by decide
  intro labels hin l hl
  obtain ⟨method, path, statusCode, durationMs, -, rfl⟩ := mem_httpKeys.mp hin
  rw [charLabels_http] at hl
  simp only [List.mem_cons, List.not_mem_nil, or_false] at hl
  obtain rfl | rfl | rfl := hl
  · exact hnames.1
  · exact hnames.2.1
  · exact hnames.2.2

theorem plainNames_status {keys : List LabelSet}
    (h : ∀ labels ∈ keys, ∃ status, statusLabels status = labels) : PlainNames keys := by
  have hname : "status".toList.count '\\' = 0 := by decide
  intro labels hin l hl
  obtain ⟨status, rfl⟩ := h labels hin
  rw [charLabels_status, List.mem_singleton] at hl
  rw [hl]
  exact hname

theorem keysCost_of_holds {clock : ℕ → ℚ} {calls : List Call} {g : Gauges}
    (h : ExpositionHolds floats clock calls g) :
    keysCost (httpKeys calls) = 0 ∧ keysCost (binaryKeys calls) = 0 ∧
      keysCost (jobKeys calls) = 0 := by
  obtain ⟨samples, hparse, hhttp, hhttpHist, hbinary, hbinaryHist, hjobs⟩ := h
  have hpaid := cost_page hparse
  rw [backslashes_page, (requests_collect clock calls).1, (requests_collect clock calls).2.1,
    (hist_collect clock calls).1, (hist_collect clock calls).2,
    sum_of_perm (tally_perm _), sum_of_perm (tally_perm _), sum_of_perm (grouped_perm _ _),
    sum_of_perm (grouped_perm _ _), sum_of_perm (jobCounts_perm clock calls),
    cost_keyed hhttp, cost_keyed hhttpHist.counts, cost_keyed hbinary,
    cost_keyed hbinaryHist.counts, cost_keyed hjobs] at hpaid
  change keysCost (httpKeys calls) + _ + keysCost (httpKeys calls) + keysCost (binaryKeys calls) +
    _ + keysCost (binaryKeys calls) + keysCost (jobKeys calls) ≤
      keysBackslashes (httpKeys calls) + 12 * keysBackslashes (httpKeys calls) +
        keysBackslashes (binaryKeys calls) + 10 * keysBackslashes (binaryKeys calls) +
        keysBackslashes (jobKeys calls) at hpaid
  have hhttpB : 10 * keysCost (httpKeys calls) ≤ _ := cost_buckets hhttpHist
  have hbinaryB : 8 * keysCost (binaryKeys calls) ≤ _ := cost_buckets hbinaryHist
  have hplainH := backslashes_keys (plainNames_http calls)
  have hplainB : 2 * keysBackslashes (binaryKeys calls) ≤ keysCost (binaryKeys calls) := by
    refine backslashes_keys (plainNames_status fun labels hin => ?_)
    obtain ⟨status, -, -, hstatus⟩ := mem_binaryKeys.mp hin
    exact ⟨status, hstatus⟩
  have hplainJ : 2 * keysBackslashes (jobKeys calls) ≤ keysCost (jobKeys calls) := by
    refine backslashes_keys (plainNames_status fun labels hin => ?_)
    obtain ⟨status, -, -, hstatus⟩ := mem_jobKeys.mp hin
    exact ⟨status, hstatus⟩
  omega

theorem clean_of_holds {clock : ℕ → ℚ} {calls : List Call} {g : Gauges}
    (h : ExpositionHolds floats clock calls g) :
    ∀ call ∈ calls, ∀ text ∈ call.texts, Clean text.toList := by
  obtain ⟨hhttp, hbinary, hjobs⟩ := keysCost_of_holds h
  intro call hcall text htext
  cases call with
  | http method path statusCode durationMs =>
    have hclean : ∀ l ∈ charLabels (httpLabels method path statusCode), Clean l.2 := fun l hl =>
      clean_of_keysCost hhttp (mem_httpKeys.mpr ⟨_, _, _, _, hcall, rfl⟩) hl
    rw [charLabels_http] at hclean
    simp only [Call.texts, List.mem_cons, List.not_mem_nil, or_false] at htext
    obtain rfl | rfl := htext
    · exact hclean ("method".toList, text.toList) List.mem_cons_self
    · exact hclean ("path".toList, text.toList) (List.mem_cons_of_mem _ List.mem_cons_self)
  | binary status durationMs =>
    rw [List.mem_singleton.mp htext]
    refine clean_of_keysCost hbinary (mem_binaryKeys.mpr ⟨_, _, hcall, rfl⟩)
      (l := ("status".toList, status.toList)) ?_
    rw [charLabels_status]
    exact List.mem_cons_self
  | job status errorCode =>
    rw [List.mem_singleton.mp htext]
    refine clean_of_keysCost hjobs (mem_jobKeys.mpr ⟨_, _, hcall, rfl⟩)
      (l := ("status".toList, status.toList)) ?_
    rw [charLabels_status]
    exact List.mem_cons_self

end Backslashes

/-! ## When the page can be read -/

/-- A page is read as what was recorded exactly if no recorded text needs an escape. -/
theorem exposition_holds_iff (floats : Floats) (clock : ℕ → ℚ) (calls : List Call) (g : Gauges) :
    ExpositionHolds floats clock calls g ↔
      ∀ call ∈ calls, ∀ text ∈ call.texts, Clean text.toList :=
  ⟨clean_of_holds, holds_of_clean g⟩

/-- Digits, with a sign and a point. -/
def isDecimal (text : List Char) : Bool :=
  !text.isEmpty && text.all fun c => c.isDigit || c = '-' || c = '.'

/-- A number with so many digits after the point. -/
def fixed (places : ℕ) (x : ℚ) : List Char :=
  let units := (x * 10 ^ places + 1 / 2).floor
  let part := natText (units.natAbs % 10 ^ places)
  (if units < 0 then ['-'] else []) ++ natText (units.natAbs / 10 ^ places) ++
    '.' :: (List.replicate (places - part.length) '0' ++ part)

theorem isDecimal_iff (text : List Char) :
    isDecimal text = true ↔ text ≠ [] ∧ ∀ c ∈ text, c.isDigit = true ∨ c = '-' ∨ c = '.' := by
  simp [isDecimal, or_assoc]

theorem digits_natText (n : ℕ) : ∀ c ∈ natText n, c.isDigit = true :=
  (image_gen.py_str.toString_digits n).2

theorem isDecimal_fixed (places : ℕ) (x : ℚ) : isDecimal (fixed places x) = true := by
  rw [isDecimal_iff]
  unfold fixed
  refine ⟨by simp, fun c hc => ?_⟩
  simp only [List.mem_append, List.mem_cons] at hc
  rcases hc with (hsign | hwhole) | rfl | hpad | hpart
  · split_ifs at hsign
    · exact .inr (.inl (List.mem_singleton.mp hsign))
    · cases hsign
  · exact .inl (digits_natText _ c hwhole)
  · exact .inr (.inr rfl)
  · rw [List.eq_of_mem_replicate hpad]
    exact .inl (by decide)
  · exact .inl (digits_natText _ c hpart)

def decimals : Floats where
  fixed3 := fixed 3
  sumText xs := fixed 6 (xs.sum / 1000)
  isFloat := isDecimal
  fixed3_isFloat := isDecimal_fixed 3
  sum_isFloat xs := isDecimal_fixed 6 _
  int_isFloat i := by
    rw [isDecimal_iff, Int.toString_eq_repr, Int.repr_eq_if]
    split_ifs
    · rw [← Nat.toString_eq_repr]
      exact ⟨(image_gen.py_str.toString_digits _).1, fun c hc => .inl (digits_natText _ c hc)⟩
    · rw [String.toList_append, ← Nat.toString_eq_repr]
      refine ⟨by simp, fun c hc => ?_⟩
      rcases List.mem_append.mp hc with hsign | hdigits
      · exact .inr (.inl (by simpa using hsign))
      · exact .inl (digits_natText _ c hdigits)
  chars x hx := by
    obtain ⟨hne, hchars⟩ := (isDecimal_iff x).mp hx
    refine ⟨hne, fun c hc => ?_⟩
    rcases hchars c hc with hdigit | rfl | rfl
    · exact .inl (by rw [Char.isAlphanum, hdigit, Bool.or_true])
    · simp
    · simp

/-- A quote in the path of a request ends its label. -/
theorem a_quote_ends_the_label :
    ¬ ExpositionHolds decimals (fun _ => 0) [.http "GET" "/\"" 404 1] ⟨1, 0, 1, 0⟩ := by
  intro h
  have hclean : Clean "/\"".toList := clean_of_holds h _ List.mem_cons_self _ (by simp [Call.texts])
  revert hclean
  decide

end image_gen.metrics_exposition

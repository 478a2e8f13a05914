-- The ledger of the attempts of one job: their rows, what was sent and
-- recorded, and the delivery status. Only the dispatcher writes to it. The
-- attempts are numbered 1, 2, .., and the last one alone can be open.
import ImageGen.Delivery

namespace image_gen.attempt_ledger

open image_gen.job_store image_gen.dispatcher

structure Ledger where
  attempts : List Attempt
  log : List Event
  status : Option WebhookDeliveryStatus

def ledger (r : Rows) : Ledger := ⟨r.attempts, r.log, r.job.webhookDeliveryStatus⟩

/-! ## Numbers -/

/-- Attempt rows are inserted only, each with the next number. -/
def WellNumbered (attempts : List Attempt) : Prop :=
  ∀ i a, attempts[i]? = some a → a.id = i ∧ a.attemptN = i + 1

theorem wellNumbered_nil : WellNumbered [] := by
  intro i a h
  simp at h

theorem wellNumbered_concat {init : List Attempt} {a : Attempt} :
    WellNumbered (init ++ [a]) ↔
      WellNumbered init ∧ a.id = init.length ∧ a.attemptN = init.length + 1 := by
  constructor
  · intro h
    refine ⟨fun i b hb => h i b ?_, h init.length a (by simp)⟩
    have hi : i < init.length := (List.getElem?_eq_some_iff.mp hb).1
    rw [List.getElem?_append_left hi]
    exact hb
  · rintro ⟨hinit, ha⟩ i b hb
    rcases Nat.lt_trichotomy i init.length with hi | rfl | hi
    · rw [List.getElem?_append_left hi] at hb
      exact hinit i b hb
    · simp only [List.getElem?_concat_length, Option.some.injEq] at hb
      exact hb ▸ ha
    · rw [List.getElem?_eq_none (by simp; omega)] at hb
      cases hb

theorem WellNumbered.map_attemptN {attempts : List Attempt} (h : WellNumbered attempts) :
    attempts.map (·.attemptN) = List.range' 1 attempts.length := by
  apply List.ext_getElem?
  intro i
  rw [List.getElem?_map]
  rcases hi : attempts[i]? with _ | a
  · have hlen : attempts.length ≤ i := List.getElem?_eq_none_iff.mp hi
    rw [List.getElem?_eq_none (by simpa using hlen)]
    rfl
  · have hlt : i < attempts.length := (List.getElem?_eq_some_iff.mp hi).1
    rw [List.getElem?_range' hlt, Option.map_some, (h i a hi).2]
    congr 1
    omega

/-- `ORDER BY attempt_n DESC LIMIT 1` finds the last row. -/
theorem WellNumbered.argmax {attempts : List Attempt} (h : WellNumbered attempts) :
    attempts.argmax (·.attemptN) = attempts.getLast? := by
  rcases List.eq_nil_or_concat' attempts with rfl | ⟨init, a, rfl⟩
  · rfl
  obtain ⟨hinit, -, hn⟩ := wellNumbered_concat.mp h
  rw [List.argmax_concat, List.getLast?_concat]
  rcases hmax : init.argmax (·.attemptN) with _ | m <;> rw [hmax]
  · dsimp only
    obtain ⟨i, hi⟩ := List.mem_iff_getElem?.mp (List.argmax_mem hmax)
    have hlt : i < init.length := (List.getElem?_eq_some_iff.mp hi).1
    have hm := (hinit i m hi).2
    have hless : m.attemptN < a.attemptN := by omega
    exact if_pos hless

theorem ne_last_of_mem {init : List Attempt} {a : Attempt} (h : WellNumbered (init ++ [a])) :
    ∀ b ∈ init, b.id ≠ a.id := by
  intro b hb
  obtain ⟨hinit, hid, -⟩ := wellNumbered_concat.mp h
  obtain ⟨i, hi⟩ := List.mem_iff_getElem?.mp hb
  have hlt : i < init.length := (List.getElem?_eq_some_iff.mp hi).1
  have hbid := (hinit i b hi).1
  omega

/-- An UPDATE by the id of the last row changes that row. -/
theorem updateAttempt_last {init : List Attempt} {a : Attempt} (h : WellNumbered (init ++ [a]))
    (f : Attempt → Attempt) : updateAttempt (init ++ [a]) a.id f = init ++ [f a] := by
  have hinit : init.map (fun b => if b.id = a.id then f b else b) = init := by
    rw [List.map_congr_left fun b hb => if_neg (ne_last_of_mem h b hb)]
    exact List.map_id' init
  unfold updateAttempt
  rw [List.map_append, hinit]
  simp

theorem filter_last {init : List Attempt} {a : Attempt} (h : WellNumbered (init ++ [a])) :
    (init ++ [a]).filter (fun b => b.id = a.id) = [a] := by
  have hinit : init.filter (fun b => b.id = a.id) = [] := by
    refine List.filter_eq_nil_iff.mpr fun b hb => ?_
    simpa using ne_last_of_mem h b hb
  rw [List.filter_append, hinit]
  simp

end image_gen.attempt_ledger

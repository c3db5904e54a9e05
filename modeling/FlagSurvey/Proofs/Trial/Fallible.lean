import FlagSurvey.Trial.Schedule

/-! Runs against an executor that may fail. Where it is a function of the request, what a plan ends with
follows the plan: a failure of a step is the failure of the whole, and side by side jobs fail with the
failure of one of them. A run that ends well has seen no failure. -/
namespace FlagSurvey.Plan

variable {α β ι : Type} {answer : Request → Except Failure Outcome}

/-- What the plan ends with where each trial comes out, or fails, by its request alone. -/
def result (answer : Request → Except Failure Outcome) (plan : Plan α) : Except Failure α :=
  (plan.run (.ofFunction answer) ()).result

@[simp] theorem result_done (value : α) : result answer (.done value) = .ok value := rfl

theorem result_ofExcept (value : Except Failure α) : result answer (ofExcept value) = value := by
  cases value <;> rfl

theorem result_trial (request : Request) : result answer (.trial request) = answer request := by
  simp only [result, trial, run, Executor.ofFunction]
  cases answer request <;> rfl

theorem result_bind (plan : Plan α) (next : α → Plan β) :
    result answer (plan >>= next) = result answer plan >>= fun value => result answer (next value) := by
  rw [result, result, run_bind]
  rcases plan.run (.ofFunction answer) () with ⟨cause | value, requests, state⟩ <;> rfl

theorem result_bind_cases {Ended : Except Failure β → Prop} {plan : Plan α} {next : α → Plan β}
    (error : ∀ cause, result answer plan = .error cause → Ended (.error cause))
    (ok : ∀ value, result answer plan = .ok value → Ended (result answer (next value))) :
    Ended (result answer (plan >>= next)) := by
  rw [result_bind]
  cases ended : result answer plan with
  | error cause => exact error cause ended
  | ok value => exact ok value ended

theorem bind_eq_error_iff {plan : Plan α} {next : α → Plan β} {cause : Failure} :
    result answer (plan >>= next) = .error cause ↔ result answer plan = .error cause ∨
      ∃ value, result answer plan = .ok value ∧ result answer (next value) = .error cause := by
  rw [result_bind]
  cases result answer plan with
  | error other => simp [Bind.bind, Except.bind]
  | ok value => simp [Bind.bind, Except.bind]

theorem bind_eq_ok_iff {plan : Plan α} {next : α → Plan β} {final : β} :
    result answer (plan >>= next) = .ok final ↔
      ∃ value, result answer plan = .ok value ∧ result answer (next value) = .ok final := by
  rw [result_bind]
  cases result answer plan with
  | error other => simp [Bind.bind, Except.bind]
  | ok value => simp [Bind.bind, Except.bind]

theorem map_eq_error_iff {plan : Plan α} {f : α → β} {cause : Failure} :
    result answer (f <$> plan) = .error cause ↔ result answer plan = .error cause := by
  rw [map_eq_pure_bind, bind_eq_error_iff]
  simp

theorem map_eq_ok_iff {plan : Plan α} {f : α → β} {final : β} :
    result answer (f <$> plan) = .ok final ↔ ∃ value, result answer plan = .ok value ∧ f value = final := by
  rw [map_eq_pure_bind, bind_eq_ok_iff]
  simp

theorem exists_of_sequence_eq_error {job : ι → Plan α} {items : List ι} {cause : Failure}
    (h : result answer (sequence (items.map job)) = .error cause) :
    ∃ item ∈ items, result answer (job item) = .error cause := by
  induction items with
  | nil => contradiction
  | cons item rest ih =>
    rcases bind_eq_error_iff.mp h with first | ⟨value, -, later⟩
    · exact ⟨item, List.mem_cons_self, first⟩
    · rcases bind_eq_error_iff.mp later with row | ⟨values, -, final⟩
      · obtain ⟨other, hother, failed⟩ := ih row
        exact ⟨other, List.mem_cons_of_mem _ hother, failed⟩
      · contradiction

theorem exists_of_sequence_eq_ok {job : ι → Plan α} {items : List ι} {values : List α}
    (h : result answer (sequence (items.map job)) = .ok values) {item : ι} (mem : item ∈ items) :
    ∃ value, result answer (job item) = .ok value := by
  induction items generalizing values with
  | nil => contradiction
  | cons first rest ih =>
    obtain ⟨value, ended, later⟩ := bind_eq_ok_iff.mp h
    obtain ⟨others, row, -⟩ := bind_eq_ok_iff.mp later
    rcases List.mem_cons.mp mem with rfl | mem
    · exact ⟨value, ended⟩
    · exact ih row mem

theorem exists_of_gather_eq_error {job : ι → Plan α} {schedule : Schedule ι} {items : List ι}
    {cause : Failure} (h : result answer (schedule.gather job items) = .error cause) :
    ∃ item ∈ items, result answer (job item) = .error cause := by
  obtain ⟨item, mem, failed⟩ := exists_of_sequence_eq_error h
  exact ⟨item, (schedule.order_perm items).mem_iff.mp mem, failed⟩

theorem exists_of_gather_eq_ok {job : ι → Plan α} {schedule : Schedule ι} {items : List ι}
    {values : List α} (h : result answer (schedule.gather job items) = .ok values) {item : ι}
    (mem : item ∈ items) : ∃ value, result answer (job item) = .ok value :=
  exists_of_sequence_eq_ok h ((schedule.order_perm items).mem_iff.mpr mem)

theorem exists_outcome_of_result_eq_ok {plan : Plan α} {value : α}
    (h : result answer plan = .ok value) {request : Request}
    (mem : request ∈ (plan.run (.ofFunction answer) ()).requests) :
    ∃ outcome, answer request = .ok outcome := by
  induction plan with
  | done final => contradiction
  | fail cause => contradiction
  | ask first next ih =>
    cases told : answer first with
    | error cause =>
      simp only [result, run, Executor.ofFunction, told] at h
      contradiction
    | ok outcome =>
      simp only [result, run, Executor.ofFunction, told] at h mem
      rcases List.mem_cons.mp mem with rfl | mem
      · exact ⟨outcome, told⟩
      · exact ih outcome h mem

end FlagSurvey.Plan

import FlagSurvey.Proofs.Trial.Reliable

/-! Transcripts. A plan that ends has asked for some trials and been told how each of them came out.
Whatever executor carried it out, the value it ends with is one that some transcript leads to, so what
holds along every transcript holds of every run. -/
namespace FlagSurvey.Plan

variable {α β ι σ : Type}

inductive Ends : Plan α → List (Request × Outcome) → α → Prop where
  | done (value : α) : Ends (.done value) [] value
  | ask {request : Request} {next : Outcome → Plan α} {outcome : Outcome}
    {rest : List (Request × Outcome)} {value : α} (later : Ends (next outcome) rest value) :
    Ends (.ask request next) ((request, outcome) :: rest) value

theorem Ends.of_done {value final : α} {transcript : List (Request × Outcome)}
    (h : Ends (.done value) transcript final) : transcript = [] ∧ value = final := by
  cases h
  exact ⟨rfl, rfl⟩

theorem Ends.of_bind {plan : Plan α} {next : α → Plan β} {transcript : List (Request × Outcome)}
    {final : β} (h : Ends (plan >>= next) transcript final) :
    ∃ value first second, Ends plan first value ∧ Ends (next value) second final ∧
      transcript = first ++ second := by
  induction plan generalizing transcript with
  | done value => exact ⟨value, [], transcript, .done value, h, rfl⟩
  | fail cause => cases h
  | ask request answer ih =>
    rw [ask_bind] at h
    cases h with
    | ask later =>
      obtain ⟨value, first, second, ended, rest, rfl⟩ := ih _ later
      exact ⟨value, _ :: first, second, .ask ended, rest, rfl⟩

theorem Ends.of_map {plan : Plan α} {f : α → β} {transcript : List (Request × Outcome)} {final : β}
    (h : Ends (f <$> plan) transcript final) : ∃ value, Ends plan transcript value ∧ f value = final := by
  rw [map_eq_pure_bind] at h
  obtain ⟨value, first, second, ended, rest, rfl⟩ := h.of_bind
  obtain ⟨rfl, rfl⟩ := rest.of_done
  exact ⟨value, by rwa [List.append_nil], rfl⟩

theorem Ends.exists_of_sequence {job : ι → Plan α} {items : List ι} {values : List α}
    {transcript : List (Request × Outcome)} (h : Ends (sequence (items.map job)) transcript values)
    {value : α} (mem : value ∈ values) : ∃ item ∈ items, ∃ part, Ends (job item) part value := by
  induction items generalizing transcript values with
  | nil =>
    obtain ⟨-, rfl⟩ := h.of_done
    contradiction
  | cons item rest ih =>
    obtain ⟨first, part, _, ended, later, -⟩ := Ends.of_bind h
    obtain ⟨others, _, _, row, final, -⟩ := later.of_bind
    obtain ⟨-, rfl⟩ := final.of_done
    rcases List.mem_cons.mp mem with rfl | mem
    · exact ⟨item, List.mem_cons_self, part, ended⟩
    · obtain ⟨other, hother, found⟩ := ih row mem
      exact ⟨other, List.mem_cons_of_mem _ hother, found⟩

/-- The plan ends with the value under some executor, which may keep a state and may fail. -/
def CanEnd (plan : Plan α) (value : α) : Prop :=
  ∃ (σ : Type) (executor : Executor σ) (state : σ), (plan.run executor state).result = .ok value

theorem exists_ends_of_run {plan : Plan α} {executor : Executor σ} {state : σ} {value : α}
    (h : (plan.run executor state).result = .ok value) :
    ∃ transcript, Ends plan transcript value ∧
      transcript.map Prod.fst = (plan.run executor state).requests := by
  induction plan generalizing state with
  | done final =>
    cases h
    exact ⟨[], .done _, rfl⟩
  | fail cause => cases h
  | ask request next ih =>
    rcases executed : executor.execute request state with ⟨cause | outcome, middle⟩
    · simp only [run, executed] at h
      contradiction
    · simp only [run, executed] at h ⊢
      obtain ⟨rest, ended, requests⟩ := ih outcome h
      exact ⟨(request, outcome) :: rest, .ask ended, congrArg (List.cons request) requests⟩

theorem CanEnd.exists_ends {plan : Plan α} {value : α} (h : CanEnd plan value) :
    ∃ transcript, Ends plan transcript value := by
  obtain ⟨_, _, _, result⟩ := h
  obtain ⟨transcript, ended, -⟩ := exists_ends_of_run result
  exact ⟨transcript, ended⟩

theorem Gives.canEnd {answer : Request → Outcome} {plan : Plan α} {value : α} {asked : List Request}
    (h : Gives answer plan value asked) : CanEnd plan value :=
  ⟨Unit, .reliable answer, (), congrArg Run.result h⟩

theorem Gives.ends {answer : Request → Outcome} {plan : Plan α} {value : α} {asked : List Request}
    (h : Gives answer plan value asked) :
    Ends plan (asked.map fun request => (request, answer request)) value := by
  induction plan generalizing asked with
  | done final =>
    cases h
    exact .done _
  | fail cause => cases h
  | ask request next ih =>
    have told : Gives answer (next (answer request)) value asked.tail ∧ asked = request :: asked.tail := by
      simp only [Gives, run, Executor.reliable, Executor.ofFunction, Run.mk.injEq] at h ⊢
      obtain ⟨result, rfl, -⟩ := h
      simp [← result]
    rw [told.2]
    exact .ask (ih _ told.1)

end FlagSurvey.Plan

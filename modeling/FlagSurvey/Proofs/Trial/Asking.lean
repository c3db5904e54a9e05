import FlagSurvey.Trial.Schedule

/-! What plans ask for. If every request on every path of a plan has a property, so has every request of
every run, whichever executor carries the plan out and wherever it fails. -/
namespace FlagSurvey.Plan

variable {α β ι : Type} {own other : Request → Prop}

inductive Asks (own : Request → Prop) : Plan α → Prop where
  | done (value : α) : Asks own (.done value)
  | fail (cause : Failure) : Asks own (.fail cause)
  | ask {request : Request} {next : Outcome → Plan α} (first : own request)
    (later : ∀ outcome, Asks own (next outcome)) : Asks own (.ask request next)

/-- Some run of the plan makes the request. -/
def CanAsk (plan : Plan α) (request : Request) : Prop :=
  ∃ (σ : Type) (executor : Executor σ) (state : σ), request ∈ (plan.run executor state).requests

theorem Asks.of_canAsk {plan : Plan α} (h : Asks own plan) {request : Request}
    (possible : plan.CanAsk request) : own request := by
  obtain ⟨σ, executor, state, mem⟩ := possible
  induction h generalizing state with
  | done value => contradiction
  | fail cause => contradiction
  | @ask asked next first later ih =>
    rcases executed : executor.execute asked state with ⟨cause | outcome, middle⟩
    · simp only [run, executed, List.mem_singleton] at mem
      exact mem ▸ first
    · simp only [run, executed, List.mem_cons] at mem
      rcases mem with rfl | mem
      · exact first
      · exact ih outcome middle mem

theorem asks_trial {request : Request} (h : own request) : Asks own (.trial request) :=
  .ask h fun outcome => .done outcome

theorem Asks.mono {plan : Plan α} (h : Asks own plan) (wider : ∀ request, own request → other request) :
    Asks other plan := by
  induction h with
  | done value => exact .done value
  | fail cause => exact .fail cause
  | ask first _ ih => exact .ask (wider _ first) ih

theorem Asks.bind {plan : Plan α} {next : α → Plan β} (h : Asks own plan)
    (rest : ∀ value, Asks own (next value)) : Asks own (plan >>= next) := by
  induction h with
  | done value => exact rest value
  | fail cause => exact .fail cause
  | ask first _ ih => exact .ask first ih

theorem Asks.map {plan : Plan α} (f : α → β) (h : Asks own plan) : Asks own (f <$> plan) := by
  rw [map_eq_pure_bind]
  exact h.bind fun value => .done (f value)

theorem asks_sequence {job : ι → Plan α} {items : List ι} (h : ∀ item ∈ items, Asks own (job item)) :
    Asks own (sequence (items.map job)) := by
  induction items with
  | nil => exact .done []
  | cons item rest ih =>
    have row := ih fun other mem => h other (List.mem_cons_of_mem _ mem)
    exact (h item List.mem_cons_self).bind fun value => row.bind fun values => .done (value :: values)

theorem asks_gather {job : ι → Plan α} (schedule : Schedule ι) {items : List ι}
    (h : ∀ item ∈ items, Asks own (job item)) : Asks own (schedule.gather job items) :=
  asks_sequence fun item mem => h item ((schedule.order_perm items).mem_iff.mp mem)

end FlagSurvey.Plan

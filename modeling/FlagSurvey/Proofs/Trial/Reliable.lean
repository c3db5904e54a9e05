import FlagSurvey.Trial.Schedule

/-! Runs of plans against an executor that never fails and answers each request by a function of that
request. Such a run is told by the value it ends with and the requests it made, and both compose along
the plan: the requests of a sequence of jobs are those of the jobs, one after the other. -/
namespace FlagSurvey

def Executor.reliable (answer : Request → Outcome) : Executor Unit :=
  .ofFunction fun request => .ok (answer request)

namespace Plan

variable {α β ι : Type} {answer : Request → Outcome}

/-- The plan ends with the value after it has asked for the trials, in order. -/
def Gives (answer : Request → Outcome) (plan : Plan α) (value : α) (asked : List Request) : Prop :=
  plan.run (.reliable answer) () = ⟨.ok value, asked, ()⟩

theorem Gives.unique {plan : Plan α} {first second : α} {asked further : List Request}
    (h : Gives answer plan first asked) (again : Gives answer plan second further) :
    first = second ∧ asked = further := by
  have same := h.symm.trans again
  simp only [Run.mk.injEq, Except.ok.injEq, and_true] at same
  exact same

theorem gives_done (value : α) : Gives answer (.done value) value [] := rfl

theorem gives_trial (request : Request) :
    Gives answer (.trial request) (answer request) [request] := rfl

theorem Gives.bind {plan : Plan α} {next : α → Plan β} {value : α} {final : β}
    {asked further : List Request} (first : Gives answer plan value asked)
    (rest : Gives answer (next value) final further) :
    Gives answer (plan >>= next) final (asked ++ further) := by
  rw [Gives, run_bind, first]
  simp only
  rw [rest]

theorem Gives.map {plan : Plan α} {value : α} {asked : List Request} (f : α → β)
    (h : Gives answer plan value asked) : Gives answer (f <$> plan) (f value) asked := by
  have step : Gives answer (plan >>= fun value => .done (f value)) (f value) (asked ++ []) :=
    h.bind (gives_done (f value))
  rw [List.append_nil] at step
  rw [map_eq_pure_bind]
  exact step

theorem Gives.sequence {job : ι → Plan α} {value : ι → α} {asked : ι → List Request}
    (items : List ι) (h : ∀ item, Gives answer (job item) (value item) (asked item)) :
    Gives answer (Plan.sequence (items.map job)) (items.map value) (items.flatMap asked) := by
  induction items with
  | nil => exact gives_done []
  | cons item rest ih =>
    have joined : Gives answer
        (Plan.sequence (rest.map job) >>= fun values => .done (value item :: values))
        (value item :: rest.map value) (rest.flatMap asked ++ []) :=
      ih.bind (gives_done (value item :: rest.map value))
    rw [List.append_nil] at joined
    rw [List.map_cons, List.flatMap_cons, Plan.sequence]
    exact (h item).bind joined

theorem Gives.gather {job : ι → Plan α} {value : ι → α} {asked : ι → List Request}
    (schedule : Schedule ι) (items : List ι)
    (h : ∀ item, Gives answer (job item) (value item) (asked item)) :
    Gives answer (schedule.gather job items) ((schedule.order items).map value)
      ((schedule.order items).flatMap asked) :=
  Gives.sequence (schedule.order items) h

/-- The plan holds no failure of its own, so that only its executor can make it fail. -/
inductive Sure : Plan α → Prop where
  | done (value : α) : Sure (.done value)
  | ask (request : Request) {next : Outcome → Plan α} (h : ∀ outcome, Sure (next outcome)) :
    Sure (.ask request next)

theorem sure_trial (request : Request) : Sure (.trial request) :=
  .ask request fun outcome => .done outcome

theorem Sure.bind {plan : Plan α} {next : α → Plan β} (h : Sure plan)
    (rest : ∀ value, Sure (next value)) : Sure (plan >>= next) := by
  induction h with
  | done value => exact rest value
  | ask request _ ih => exact .ask request ih

theorem Sure.map {plan : Plan α} (f : α → β) (h : Sure plan) : Sure (f <$> plan) := by
  rw [map_eq_pure_bind]
  exact h.bind fun value => .done (f value)

theorem Sure.exists_gives {plan : Plan α} (h : Sure plan) (answer : Request → Outcome) :
    ∃ value asked, Gives answer plan value asked := by
  induction h with
  | done value => exact ⟨value, [], gives_done value⟩
  | ask request _ ih =>
    obtain ⟨value, asked, later⟩ := ih (answer request)
    exact ⟨value, request :: asked, (gives_trial request).bind later⟩

end Plan
end FlagSurvey

import FlagSurvey.Trial.Plan

/-! Schedules. Jobs that do not depend on each other run side by side, and their results are taken in
the order in which they end; a schedule is one such order for each list of jobs. -/
namespace FlagSurvey

structure Schedule (α : Type) where
  order : List α → List α
  order_perm : ∀ jobs, (order jobs).Perm jobs

namespace Schedule

variable {α β : Type}

def listed : Schedule α := ⟨id, fun jobs => .refl jobs⟩

/-- Carries out a job for each item; the first to fail ends them all. -/
def gather (schedule : Schedule α) (job : α → Plan β) (items : List α) : Plan (List β) :=
  .sequence ((schedule.order items).map job)

end Schedule
end FlagSurvey

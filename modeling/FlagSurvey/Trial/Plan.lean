import FlagSurvey.Failure
import FlagSurvey.Trial.Command
import FlagSurvey.Trial.Verdict

/-! Plans of trials. A plan ends with a value, ends with a failure, or asks for one trial and goes on
with its outcome. An executor carries out requests, changing a state of its own; running a plan against
one yields the result, the requests made, in order, and the last state. -/
namespace FlagSurvey

inductive Plan (α : Type) where
  | done (value : α)
  | fail (cause : Failure)
  | ask (request : Request) (next : Outcome → Plan α)

structure Executor (σ : Type) where
  execute : Request → σ → Except Failure Outcome × σ

def Executor.ofFunction (answer : Request → Except Failure Outcome) : Executor Unit :=
  ⟨fun request _ => (answer request, ())⟩

structure Run (σ α : Type) where
  result : Except Failure α
  requests : List Request
  state : σ

namespace Plan

variable {α β σ : Type}

def bind : Plan α → (α → Plan β) → Plan β
  | .done value, next => next value
  | .fail cause, _ => .fail cause
  | .ask request answer, next => .ask request fun outcome => (answer outcome).bind next

instance : Monad Plan where
  pure := .done
  bind := .bind

def run (executor : Executor σ) : Plan α → σ → Run σ α
  | .done value, state => ⟨.ok value, [], state⟩
  | .fail cause, state => ⟨.error cause, [], state⟩
  | .ask request next, state =>
    match executor.execute request state with
    | (.error cause, state) => ⟨.error cause, [request], state⟩
    | (.ok outcome, state) =>
      let rest := (next outcome).run executor state
      { rest with requests := request :: rest.requests }

def trial (request : Request) : Plan Outcome := .ask request .done

def ofExcept : Except Failure α → Plan α
  | .ok value => .done value
  | .error cause => .fail cause

def sequence : List (Plan α) → Plan (List α)
  | [] => .done []
  | plan :: rest => do
    let value ← plan
    let values ← sequence rest
    pure (value :: values)

@[simp] theorem pure_eq (value : α) : (pure value : Plan α) = .done value := rfl

@[simp] theorem done_bind (value : α) (next : α → Plan β) : (Plan.done value >>= next) = next value :=
  rfl

@[simp] theorem fail_bind (cause : Failure) (next : α → Plan β) :
    (Plan.fail cause >>= next) = .fail cause := rfl

@[simp] theorem ask_bind (request : Request) (answer : Outcome → Plan α) (next : α → Plan β) :
    (Plan.ask request answer >>= next) = .ask request fun outcome => answer outcome >>= next := rfl

theorem map_id (plan : Plan α) : id <$> plan = plan := by
  induction plan with
  | done => rfl
  | fail => rfl
  | ask request answer ih => exact congrArg (Plan.ask request) (funext ih)

theorem bind_assoc {γ : Type} (plan : Plan α) (f : α → Plan β) (g : β → Plan γ) :
    plan >>= f >>= g = plan >>= fun value => f value >>= g := by
  induction plan with
  | done => rfl
  | fail => rfl
  | ask request answer ih => exact congrArg (Plan.ask request) (funext ih)

instance : LawfulMonad Plan :=
  LawfulMonad.mk' Plan map_id (fun _ _ => rfl) bind_assoc

theorem run_bind (executor : Executor σ) (plan : Plan α) (next : α → Plan β) (state : σ) :
    (plan >>= next).run executor state =
      match plan.run executor state with
      | ⟨.ok value, requests, middle⟩ =>
        let rest := (next value).run executor middle
        { rest with requests := requests ++ rest.requests }
      | ⟨.error cause, requests, middle⟩ => ⟨.error cause, requests, middle⟩ := by
  induction plan generalizing state with
  | done value => simp [run]
  | fail cause => simp [run]
  | ask request answer ih =>
    simp only [ask_bind, run]
    rcases executor.execute request state with ⟨answered, middle⟩
    cases answered with
    | error cause => rfl
    | ok outcome =>
      simp only [ih]
      generalize (answer outcome).run executor middle = ran
      rcases ran with ⟨result, requests, last⟩
      cases result <;> simp

end Plan
end FlagSurvey

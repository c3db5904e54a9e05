import FlagSurvey.Trial.Plan

/-! Courses of runs. An executor that keeps a state may answer the same request in another way each time,
and may fail; what it does in one run is told by the answers to the requests of that run, in order. A plan
goes on only after an answer that is an outcome, so that the first failure is the last answer and what
the run ends with. -/
namespace FlagSurvey

variable {σ : Type}

def Executor.exchange (executor : Executor σ) :
    List Request → σ → List (Request × Except Failure Outcome)
  | [], _ => []
  | request :: rest, state =>
    let (answer, later) := executor.execute request state
    (request, answer) :: executor.exchange rest later

namespace Executor

variable {executor : Executor σ}

@[simp] theorem map_fst_exchange (requests : List Request) (state : σ) :
    (executor.exchange requests state).map Prod.fst = requests := by
  induction requests generalizing state with
  | nil => rfl
  | cons request rest ih => exact congrArg (List.cons request) (ih _)

theorem exists_state_of_mem_exchange {requests : List Request} {state : σ} {request : Request}
    {answer : Except Failure Outcome} (h : (request, answer) ∈ executor.exchange requests state) :
    ∃ reached, (executor.execute request reached).1 = answer := by
  induction requests generalizing state with
  | nil => contradiction
  | cons first rest ih =>
    rcases List.mem_cons.mp h with same | later
    · obtain ⟨rfl, rfl⟩ := Prod.mk.inj same
      exact ⟨state, rfl⟩
    · exact ih later

end Executor

namespace Plan

variable {α : Type}

/-- The plan ends so if its requests are answered so. -/
inductive Course : Plan α → List (Request × Except Failure Outcome) → Except Failure α → Prop where
  | done (value : α) : Course (.done value) [] (.ok value)
  | fail (cause : Failure) : Course (.fail cause) [] (.error cause)
  | told {request : Request} {next : Outcome → Plan α} {outcome : Outcome}
    {rest : List (Request × Except Failure Outcome)} {ended : Except Failure α}
    (later : Course (next outcome) rest ended) :
    Course (.ask request next) ((request, .ok outcome) :: rest) ended
  | broken {request : Request} {next : Outcome → Plan α} {cause : Failure} :
    Course (.ask request next) [(request, .error cause)] (.error cause)

theorem course_run (plan : Plan α) (executor : Executor σ) (state : σ) :
    Course plan (executor.exchange (plan.run executor state).requests state)
      (plan.run executor state).result := by
  induction plan generalizing state with
  | done value => exact .done value
  | fail cause => exact .fail cause
  | ask request next ih =>
    rcases executed : executor.execute request state with ⟨cause | outcome, middle⟩
    · simp only [run, executed, Executor.exchange]
      exact .broken
    · simp only [run, executed, Executor.exchange]
      exact .told (ih outcome middle)

variable {course : List (Request × Except Failure Outcome)}

theorem Course.of_done {value : α} {ended : Except Failure α} (h : Course (.done value) course ended) :
    course = [] ∧ ended = .ok value := by
  cases h
  exact ⟨rfl, rfl⟩

theorem Course.of_ask {request : Request} {next : Outcome → Plan α} {ended : Except Failure α}
    (h : Course (.ask request next) course ended) :
    (∃ cause, course = [(request, .error cause)] ∧ ended = .error cause) ∨
      ∃ outcome rest, course = (request, .ok outcome) :: rest ∧ Course (next outcome) rest ended := by
  cases h with
  | told later => exact .inr ⟨_, _, rfl, later⟩
  | broken => exact .inl ⟨_, rfl, rfl⟩

/-- A failure among the answers is the last of them, and the run ends with it. -/
theorem Course.of_error {plan : Plan α} {ended : Except Failure α} (h : Course plan course ended)
    {before after : List (Request × Except Failure Outcome)} {request : Request} {cause : Failure}
    (broken : course = before ++ (request, .error cause) :: after) :
    after = [] ∧ ended = .error cause := by
  induction h generalizing before with
  | done value => simp at broken
  | fail other => simp at broken
  | told later ih =>
    cases before with
    | nil => simp at broken
    | cons first before => exact ih (List.cons.inj broken).2
  | broken =>
    cases before with
    | nil =>
      obtain ⟨same, rfl⟩ := List.cons.inj broken
      cases same
      exact ⟨rfl, rfl⟩
    | cons first before => simp at broken

end Plan
end FlagSurvey

import FlagSurvey.Probe.Range
import FlagSurvey.Proofs.Trial.Course
import FlagSurvey.Trial.Script

/-! The descent of a search, against any executor. Nothing is assumed of the answers: they may change from
one trial of a value to the next, and any of them may be a failure. The values tried still stay between
the least one and the ceiling, no step leaves the signed integers of sixty-four bits, and what the search
ends with rests on its last trial. -/
namespace FlagSurvey.Probe

open Number Plan

structure Attempt where
  value : Int
  verdict : Except Failure Verdict

def Shows (p : Probe) (render : Int → String) (course : List (Request × Except Failure Outcome))
    (attempts : List Attempt) : Prop :=
  course.map (fun (request, answer) => (request, answer.map Verdict.of)) =
    attempts.map fun a => (p.request (render a.value), a.verdict)

/-- How the search goes on from a value, with so many steps left. -/
inductive Descends (min : Int) : Nat → Int → List Attempt → Except Failure UpperBound → Prop where
  | exhausted (value : Int) : Descends min 0 value [] (.ok ⟨min, false⟩)
  | failed {steps : Nat} (value : Int) (cause : Failure) :
    Descends min (steps + 1) value [⟨value, .error cause⟩] (.error cause)
  | taken {steps : Nat} (value : Int) :
    Descends min (steps + 1) value [⟨value, .ok .accepted⟩] (.ok ⟨value, true⟩)
  | stuck {steps : Nat} {value : Int} (reason : Rejection) (stop : halfway? min value = none) :
    Descends min (steps + 1) value [⟨value, .ok (.rejected reason)⟩] (.ok ⟨min, false⟩)
  | down {steps : Nat} {value next : Int} {rest : List Attempt} {ended : Except Failure UpperBound}
    (reason : Rejection) (halved : halfway? min value = some next)
    (later : Descends min steps next rest ended) :
    Descends min (steps + 1) value (⟨value, .ok (.rejected reason)⟩ :: rest) ended

inductive Searches (min : Int) : List Attempt → Except Failure UpperBound → Prop where
  | above (far : ceiling < min) : Searches min [] (.ok ⟨min, false⟩)
  | failed (within : min ≤ ceiling) (cause : Failure) :
    Searches min [⟨min, .error cause⟩] (.error cause)
  | refused (within : min ≤ ceiling) (reason : Rejection) :
    Searches min [⟨min, .ok (.rejected reason)⟩] (.ok ⟨min, false⟩)
  | taken (within : min ≤ ceiling) {rest : List Attempt} {ended : Except Failure UpperBound}
    (later : Descends min narrowingSteps ceiling rest ended) :
    Searches min (⟨min, .ok .accepted⟩ :: rest) ended

variable {p : Probe} {render : Int → String} {min : Int}
  {course : List (Request × Except Failure Outcome)} {attempts : List Attempt}

theorem shows_nil : p.Shows render [] [] := rfl

theorem Shows.cons {value : Int} {answer : Except Failure Outcome} (h : p.Shows render course attempts) :
    p.Shows render ((p.request (render value), answer) :: course)
      (⟨value, answer.map Verdict.of⟩ :: attempts) :=
  congrArg (List.cons (p.request (render value), answer.map Verdict.of)) h

theorem of_course_trial_bind {α : Type} {value : Int} {next : Verdict → Plan α} {ended : Except Failure α}
    (h : Course (p.trial (render value) >>= next) course ended) :
    (∃ cause, p.Shows render course [⟨value, .error cause⟩] ∧ ended = .error cause) ∨
      ∃ verdict rest, Course (next verdict) rest ended ∧
        ∀ attempts, p.Shows render rest attempts →
          p.Shows render course (⟨value, .ok verdict⟩ :: attempts) := by
  rw [trial_eq, ask_bind] at h
  rcases h.of_ask with ⟨cause, rfl, rfl⟩ | ⟨outcome, rest, rfl, later⟩
  · exact .inl ⟨cause, shows_nil.cons, rfl⟩
  · exact .inr ⟨Verdict.of outcome, rest, later, fun attempts shown => shown.cons⟩

theorem exists_descends {steps : Nat} {value : Int} {ended : Except Failure UpperBound}
    (h : Course (p.narrow render min steps value) course ended) :
    ∃ attempts, p.Shows render course attempts ∧ Descends min steps value attempts ended := by
  induction steps generalizing value course with
  | zero =>
    obtain ⟨rfl, rfl⟩ := h.of_done
    exact ⟨[], shows_nil, .exhausted value⟩
  | succ steps ih =>
    rw [narrow] at h
    rcases of_course_trial_bind h with ⟨cause, shown, rfl⟩ | ⟨verdict, rest, later, shows⟩
    · exact ⟨_, shown, .failed value cause⟩
    · cases verdict with
      | accepted =>
        obtain ⟨rfl, rfl⟩ := later.of_done
        exact ⟨_, shows [] shows_nil, .taken value⟩
      | rejected reason =>
        simp only at later
        split at later
        · next next halved =>
          obtain ⟨attempts, shown, descends⟩ := ih later
          exact ⟨_, shows attempts shown, .down reason halved descends⟩
        · next stop =>
          obtain ⟨rfl, rfl⟩ := later.of_done
          exact ⟨_, shows [] shows_nil, .stuck reason stop⟩

theorem exists_searches {lead name separator : String} {ended : Except Failure UpperBound}
    (h : Course (p.findMax lead name separator min) course ended) :
    ∃ attempts, p.Shows (renderParam lead name separator) course attempts ∧
      Searches min attempts ended := by
  simp only [findMax] at h
  split at h
  · next far =>
    obtain ⟨rfl, rfl⟩ := h.of_done
    exact ⟨[], shows_nil, .above far⟩
  · next within =>
    have within : min ≤ ceiling := Int.not_lt.mp within
    rcases of_course_trial_bind h with ⟨cause, shown, rfl⟩ | ⟨verdict, rest, later, shows⟩
    · exact ⟨_, shown, .failed within cause⟩
    · cases verdict with
      | rejected reason =>
        obtain ⟨rfl, rfl⟩ := later.of_done
        exact ⟨_, shows [] shows_nil, .refused within reason⟩
      | accepted =>
        obtain ⟨attempts, shown, descends⟩ := exists_descends later
        exact ⟨_, shows attempts shown, .taken within descends⟩

theorem exists_searches_run {σ : Type} (executor : Executor σ) (lead name separator : String) (min : Int)
    (state : σ) :
    let run := (p.findMax lead name separator min).run executor state
    ∃ attempts, p.Shows (renderParam lead name separator) (executor.exchange run.requests state) attempts ∧
      Searches min attempts run.result :=
  exists_searches (course_run _ executor state)

theorem Descends.bounded {steps : Nat} {value : Int} {ended : Except Failure UpperBound}
    (h : Descends min steps value attempts ended) (lower : min ≤ value) (upper : value ≤ ceiling) :
    ∀ a ∈ attempts, min ≤ a.value ∧ a.value ≤ ceiling := by
  induction h with
  | exhausted value => exact nofun
  | failed value cause => exact List.forall_mem_singleton.mpr ⟨lower, upper⟩
  | taken value => exact List.forall_mem_singleton.mpr ⟨lower, upper⟩
  | stuck reason stop => exact List.forall_mem_singleton.mpr ⟨lower, upper⟩
  | down reason halved later ih =>
    have bounds := halfway?_bounds halved
    exact List.forall_mem_cons.mpr ⟨⟨lower, upper⟩, ih bounds.1 bounds.2⟩

theorem Descends.length_le {steps : Nat} {value : Int} {ended : Except Failure UpperBound}
    (h : Descends min steps value attempts ended) : attempts.length ≤ steps := by
  induction h with
  | exhausted value => exact Nat.le_refl 0
  | down reason halved later ih => exact Nat.succ_le_succ ih
  | _ => exact Nat.succ_le_succ (Nat.zero_le _)

/-- Where the distance of the ceiling is no signed integer of sixty-four bits, the descent ends there. -/
theorem Descends.length_le_one {steps : Nat} {ended : Except Failure UpperBound}
    (h : Descends min steps ceiling attempts ended) (within : min ≤ ceiling)
    (far : greatest < ceiling - min) : attempts.length ≤ 1 := by
  cases h with
  | exhausted => exact Nat.zero_le 1
  | down reason halved later =>
    have near := ((halfway?_eq_some_iff within (Int.le_refl ceiling)).mp halved).1
    omega
  | _ => exact Nat.le_refl 1

theorem Descends.head {steps : Nat} {value : Int} {ended : Except Failure UpperBound}
    (h : Descends min (steps + 1) value attempts ended) :
    attempts.head?.map Attempt.value = some value := by
  cases h <;> rfl

def Attempt.Refused (a : Attempt) : Prop := ∃ reason, a.verdict = .ok (.rejected reason)

/-- A row of trials settles what the search ends with: all but the last were refused, and the last was
refused too, or was taken, or failed. -/
inductive Settles (min : Int) : List Attempt → Except Failure UpperBound → Prop where
  | refused {row : List Attempt} (all : ∀ a ∈ row, a.Refused) : Settles min row (.ok ⟨min, false⟩)
  | taken {row : List Attempt} (all : ∀ a ∈ row, a.Refused) (value : Int) :
    Settles min (row ++ [⟨value, .ok .accepted⟩]) (.ok ⟨value, true⟩)
  | failed {row : List Attempt} (all : ∀ a ∈ row, a.Refused) (value : Int) (cause : Failure) :
    Settles min (row ++ [⟨value, .error cause⟩]) (.error cause)

theorem Settles.cons {value : Int} {reason : Rejection} {ended : Except Failure UpperBound}
    (h : Settles min attempts ended) :
    Settles min (⟨value, .ok (.rejected reason)⟩ :: attempts) ended := by
  have first : Attempt.Refused ⟨value, .ok (.rejected reason)⟩ := ⟨reason, rfl⟩
  cases h with
  | refused all => exact .refused (List.forall_mem_cons.mpr ⟨first, all⟩)
  | taken all value => exact .taken (List.forall_mem_cons.mpr ⟨first, all⟩) value
  | failed all value cause => exact .failed (List.forall_mem_cons.mpr ⟨first, all⟩) value cause

theorem Descends.settles {steps : Nat} {value : Int} {ended : Except Failure UpperBound}
    (h : Descends min steps value attempts ended) : Settles min attempts ended := by
  have before : ∀ a ∈ ([] : List Attempt), a.Refused := nofun
  induction h with
  | exhausted value => exact .refused before
  | failed value cause => exact .failed before value cause
  | taken value => exact .taken before value
  | stuck reason stop => exact .cons (.refused before)
  | down reason halved later ih => exact ih.cons

/-- The arithmetic of a step from a value. The distance of a nearer value is in range if that of the
ceiling is; where it is, so are its magnitude and the value halfway, and the step leads there. -/
structure StepFits (min value : Int) : Prop where
  distance : ceiling - min ≤ greatest → Fits (value - min)
  magnitude : ∀ span, checked (value - min) = some span → Fits span.natAbs
  middle : ∀ span, checked (value - min) = some span → Fits ((span.natAbs / 2 : Nat) + min)
  leads : ∀ span, checked (value - min) = some span →
    halfway? min value = some ((span.natAbs / 2 : Nat) + min)

theorem stepFits {value : Int} (fits : Fits min) (lower : min ≤ value) (upper : value ≤ ceiling) :
    StepFits min value := by
  have top : ceiling ≤ greatest := by decide
  have span_eq {span : Int} (h : checked (value - min) = some span) :
      value - min = span ∧ span ≤ greatest := by
    obtain ⟨rfl, inside⟩ := checked_eq_some_iff.mp h
    exact ⟨rfl, inside.2⟩
  simp only [Fits, least] at fits
  refine ⟨fun near => ?_, fun span h => ?_, fun span h => ?_, fun span h => ?_⟩
  · simp only [Fits, least]
    omega
  · have distance := span_eq h
    simp only [Fits, least]
    omega
  · have distance := span_eq h
    simp only [Fits, least]
    omega
  · have distance := span_eq h
    rw [halfway?_eq_some_iff lower upper]
    omega

namespace Searches

variable {ended : Except Failure UpperBound}

theorem eq_nil (h : Searches min attempts ended) (far : ceiling < min) : attempts = [] := by
  cases h with
  | above => rfl
  | failed within | refused within | taken within => omega

theorem length_le (h : Searches min attempts ended) : attempts.length ≤ narrowingSteps + 1 := by
  cases h with
  | above => exact Nat.zero_le _
  | failed | refused => exact Nat.succ_le_succ (Nat.zero_le _)
  | taken within later => exact Nat.succ_le_succ later.length_le

theorem length_le_two (h : Searches min attempts ended) (far : greatest < ceiling - min) :
    attempts.length ≤ 2 := by
  cases h with
  | above => exact Nat.zero_le _
  | failed | refused => exact Nat.succ_le_succ (Nat.zero_le _)
  | taken within later => exact Nat.succ_le_succ (later.length_le_one within far)

theorem head (h : Searches min attempts ended) (within : min ≤ ceiling) :
    attempts.head?.map Attempt.value = some min := by
  cases h with
  | above far => omega
  | failed | refused | taken => rfl

theorem second {rest : List Attempt} (h : Searches min (⟨min, .ok .accepted⟩ :: rest) ended) :
    rest.head?.map Attempt.value = some ceiling := by
  cases h with
  | taken within later => exact later.head

theorem bounded (h : Searches min attempts ended) :
    ∀ a ∈ attempts, min ≤ a.value ∧ a.value ≤ ceiling := by
  cases h with
  | above far => exact nofun
  | failed within | refused within =>
    exact List.forall_mem_singleton.mpr ⟨Int.le_refl min, within⟩
  | taken within later =>
    exact List.forall_mem_cons.mpr
      ⟨⟨Int.le_refl min, within⟩, later.bounded within (Int.le_refl ceiling)⟩

theorem of_found {m : Int} (h : Searches min attempts (.ok ⟨m, true⟩)) :
    ∃ row, (∀ a ∈ row, a.Refused) ∧
      attempts = ⟨min, .ok .accepted⟩ :: row ++ [⟨m, .ok .accepted⟩] := by
  cases h with
  | taken within later =>
    cases later.settles with
    | taken all value => exact ⟨_, all, rfl⟩

theorem of_not_found {m : Int} (h : Searches min attempts (.ok ⟨m, false⟩)) :
    m = min ∧ ∀ a ∈ attempts.tail, a.Refused := by
  cases h with
  | above far => exact ⟨rfl, nofun⟩
  | refused within reason => exact ⟨rfl, nofun⟩
  | taken within later =>
    cases later.settles with
    | refused all => exact ⟨rfl, all⟩

end Searches

theorem Shows.exists_error {before after : List Attempt} {value : Int} {cause : Failure}
    (h : p.Shows render course (before ++ ⟨value, .error cause⟩ :: after)) :
    ∃ first request rest, course = first ++ (request, .error cause) :: rest ∧
      rest.length = after.length := by
  rw [Shows, List.map_append, List.map_cons] at h
  obtain ⟨first, later, rfl, -, shown⟩ := List.map_eq_append_iff.mp h
  obtain ⟨⟨request, answer⟩, rest, rfl, same, others⟩ := List.map_eq_cons_iff.mp shown
  have lengths := congrArg List.length others
  rw [List.length_map, List.length_map] at lengths
  have failed : answer = .error cause := by
    cases answer with
    | error other => exact congrArg Except.error (Except.error.inj (Prod.mk.inj same).2)
    | ok outcome => cases (Prod.mk.inj same).2
  exact ⟨first, request, rest, by rw [failed], lengths⟩

theorem Shows.length_eq {requests : List Request} {σ : Type} {executor : Executor σ} {state : σ}
    (h : p.Shows render (executor.exchange requests state) attempts) :
    requests.length = attempts.length := by
  have lengths := congrArg List.length h
  rw [List.length_map, List.length_map] at lengths
  rw [← lengths, ← List.length_map (f := Prod.fst), Executor.map_fst_exchange]

/-- What holds of every search, whatever the executor answers and however its answers change. -/
theorem findMax_against_any {σ : Type} (p : Probe) (executor : Executor σ)
    (lead name separator : String) (fits : Fits min) (state : σ) :
    let run := (p.findMax lead name separator min).run executor state
    ∃ attempts,
      p.Shows (renderParam lead name separator) (executor.exchange run.requests state) attempts ∧
      (ceiling < min → run.requests = []) ∧
      run.requests.length ≤ 65 ∧
      (min ≤ ceiling → attempts.head?.map Attempt.value = some min) ∧
      (∀ rest, attempts = ⟨min, .ok .accepted⟩ :: rest →
        rest.head?.map Attempt.value = some ceiling) ∧
      (∀ a ∈ attempts, min ≤ a.value ∧ a.value ≤ ceiling ∧ StepFits min a.value) ∧
      (greatest < ceiling - min → run.requests.length ≤ 2) ∧
      (∀ m, run.result = .ok ⟨m, true⟩ → ∃ row, (∀ a ∈ row, a.Refused) ∧
        attempts = ⟨min, .ok .accepted⟩ :: row ++ [⟨m, .ok .accepted⟩]) ∧
      (∀ m, run.result = .ok ⟨m, false⟩ → m = min ∧ ∀ a ∈ attempts.tail, a.Refused) ∧
      ∀ before value cause after, attempts = before ++ ⟨value, .error cause⟩ :: after →
        after = [] ∧ run.result = .error cause := by
  intro run
  obtain ⟨attempts, shown, searches⟩ :=
    exists_searches_run (p := p) executor lead name separator min state
  have length : run.requests.length = attempts.length := shown.length_eq
  refine ⟨attempts, shown, fun far => ?_, ?_, searches.head, ?_, fun a mem => ?_, fun far => ?_,
    fun m found => ?_, fun m failed => ?_, ?_⟩
  · rw [searches.eq_nil far] at length
    exact List.length_eq_zero_iff.mp length
  · rw [length]
    exact searches.length_le
  · rintro rest rfl
    exact searches.second
  · obtain ⟨lower, upper⟩ := searches.bounded a mem
    exact ⟨lower, upper, stepFits fits lower upper⟩
  · rw [length]
    exact searches.length_le_two far
  · rw [found] at searches
    exact searches.of_found
  · rw [failed] at searches
    exact searches.of_not_found
  · rintro before value cause after rfl
    obtain ⟨first, request, rest, broken, same⟩ := shown.exists_error
    obtain ⟨rfl, ended⟩ := (course_run _ executor state).of_error broken
    exact ⟨List.length_eq_zero_iff.mp same.symm, ended⟩

theorem bound_of_changing_compiler :
    let p : Probe := ⟨"cc", "hello.c", ⟨5000000000⟩⟩
    let any : Script.Pattern := ⟨none, none, none, none, none, none⟩
    let rules : List Script.Rule :=
      [⟨any, some 1, .outcome .passing⟩, ⟨any, some 2, .outcome (.ended 1 "" "cc1: error: no")⟩]
    let executor := Script.executor (some "hello.c")
    let run := (p.findMax "--param " "max-foo" "=" 2147483641).run executor rules
    Fits 2147483641 ∧ ∃ attempts,
      p.Shows (renderParam "--param " "max-foo" "=") (executor.exchange run.requests rules) attempts ∧
        ∃ row, (∀ a ∈ row, a.Refused) ∧
          attempts = ⟨2147483641, .ok .accepted⟩ :: row ++ [⟨2147483642, .ok .accepted⟩] := by
  intro p any rules executor run
  have fits : Fits 2147483641 := by decide
  have found : run.result = .ok ⟨2147483642, true⟩ := by
    have value : run.result.toOption = some ⟨2147483642, true⟩ := by decide +kernel
    cases ended : run.result with
    | error cause =>
      rw [ended] at value
      contradiction
    | ok bound =>
      rw [ended] at value
      exact congrArg Except.ok (Option.some.inj value)
  obtain ⟨attempts, shown, -, -, -, -, -, -, settled, -, -⟩ :=
    findMax_against_any p executor "--param " "max-foo" "=" fits rules
  exact ⟨fits, attempts, shown, settled _ found⟩

end FlagSurvey.Probe

import FlagSurvey.Probe.Range
import FlagSurvey.Proofs.Trial.Fallible

/-! Failures of probes. A check fails with its direct trial, or with the trial of the inverse that follows
a direct trial that was taken. A search fails with the trial of the least value, or with a trial on the
way down from the ceiling; which values it comes to depends on the trials before. -/
namespace FlagSurvey.Probe

open Plan

variable (p : Probe) (answer : Request → Except Failure Outcome)

def Accepts (flag : String) : Prop :=
  ∃ outcome, answer (p.request flag) = .ok outcome ∧ Verdict.of outcome = .accepted

def Refuses (flag : String) : Prop :=
  ∃ outcome reason, answer (p.request flag) = .ok outcome ∧ Verdict.of outcome = .rejected reason

def Passes (flag : String) : Prop :=
  p.Accepts answer flag ∧ ∀ inverse, invert? flag = some inverse → p.Accepts answer inverse

/-- A trial that the check of a flag requires fails. -/
inductive CheckFault (flag : String) : Failure → Prop where
  | direct {cause : Failure} (failed : answer (p.request flag) = .error cause) : CheckFault flag cause
  | inverse {inverse : String} {cause : Failure} (taken : p.Accepts answer flag)
    (inverted : invert? flag = some inverse) (failed : answer (p.request inverse) = .error cause) :
    CheckFault flag cause

inductive Narrows (render : Int → String) (min : Int) : Nat → Int → Int → Prop where
  | here (value : Int) : Narrows render min 0 value value
  | down {steps : Nat} {value next last : Int} (refused : p.Refuses answer (render value))
    (halved : halfway? min value = some next) (later : Narrows render min steps next last) :
    Narrows render min (steps + 1) value last

/-- A trial that the search above a least value requires fails. -/
inductive SearchFault (render : Int → String) (min : Int) : Failure → Prop where
  | least {cause : Failure} (within : min ≤ ceiling)
    (failed : answer (p.request (render min)) = .error cause) : SearchFault render min cause
  | narrowing {steps : Nat} {value : Int} {cause : Failure} (within : min ≤ ceiling)
    (taken : p.Accepts answer (render min)) (few : steps < narrowingSteps)
    (reached : p.Narrows answer render min steps ceiling value)
    (failed : answer (p.request (render value)) = .error cause) : SearchFault render min cause

variable {p answer}

theorem CheckFault.exists_request {flag : String} {cause : Failure} (h : p.CheckFault answer flag cause) :
    ∃ request, answer request = .error cause := by
  cases h with
  | direct failed => exact ⟨_, failed⟩
  | inverse _ _ failed => exact ⟨_, failed⟩

theorem SearchFault.exists_request {render : Int → String} {min : Int} {cause : Failure}
    (h : p.SearchFault answer render min cause) : ∃ request, answer request = .error cause := by
  cases h with
  | least _ failed => exact ⟨_, failed⟩
  | narrowing _ _ _ _ failed => exact ⟨_, failed⟩

theorem trial_eq_error_iff {flag : String} {cause : Failure} :
    result answer (p.trial flag) = .error cause ↔ answer (p.request flag) = .error cause := by
  rw [trial, map_eq_error_iff, result_trial]

theorem trial_eq_accepted_iff {flag : String} :
    result answer (p.trial flag) = .ok .accepted ↔ p.Accepts answer flag := by
  rw [trial, map_eq_ok_iff, result_trial]
  rfl

theorem refuses_iff {flag : String} :
    p.Refuses answer flag ↔ ∃ reason, result answer (p.trial flag) = .ok (.rejected reason) := by
  simp only [trial, map_eq_ok_iff, result_trial, Refuses]
  exact exists_comm

theorem check_eq_error_iff {flag : String} {cause : Failure} :
    result answer (p.check flag) = .error cause ↔ p.CheckFault answer flag cause := by
  rw [check, bind_eq_error_iff, trial_eq_error_iff]
  constructor
  · rintro (failed | ⟨verdict, tried, later⟩)
    · exact .direct failed
    · cases verdict with
      | rejected reason => contradiction
      | accepted =>
        cases inverted : invert? flag with
        | none =>
          simp only [inverted] at later
          contradiction
        | some inverse =>
          simp only [inverted] at later
          rcases bind_eq_error_iff.mp later with failed | ⟨verdict, -, final⟩
          · exact .inverse (trial_eq_accepted_iff.mp tried) inverted (trial_eq_error_iff.mp failed)
          · cases verdict <;> contradiction
  · rintro (failed | ⟨taken, inverted, failed⟩)
    · exact .inl failed
    · refine .inr ⟨.accepted, trial_eq_accepted_iff.mpr taken, ?_⟩
      simp only [inverted]
      exact bind_eq_error_iff.mpr (.inl (trial_eq_error_iff.mpr failed))

theorem isValid_eq_error_iff {flag : String} {cause : Failure} :
    result answer (p.isValid flag) = .error cause ↔ p.CheckFault answer flag cause := by
  rw [isValid, map_eq_error_iff, check_eq_error_iff]

theorem check_eq_accepted_iff {flag : String} :
    result answer (p.check flag) = .ok .accepted ↔ p.Passes answer flag := by
  rw [check, bind_eq_ok_iff]
  constructor
  · rintro ⟨verdict, tried, later⟩
    cases verdict with
    | rejected reason => simp at later
    | accepted =>
      refine ⟨trial_eq_accepted_iff.mp tried, fun inverse inverted => ?_⟩
      simp only [inverted] at later
      obtain ⟨verdict, second, final⟩ := bind_eq_ok_iff.mp later
      cases verdict with
      | rejected reason => simp at final
      | accepted => exact trial_eq_accepted_iff.mp second
  · rintro ⟨taken, inverses⟩
    refine ⟨.accepted, trial_eq_accepted_iff.mpr taken, ?_⟩
    cases inverted : invert? flag with
    | none => rfl
    | some inverse =>
      have second := trial_eq_accepted_iff.mpr (inverses inverse inverted)
      exact bind_eq_ok_iff.mpr ⟨_, second, rfl⟩

theorem isValid_eq_true_iff {flag : String} :
    result answer (p.isValid flag) = .ok true ↔ p.Passes answer flag := by
  rw [isValid, map_eq_ok_iff, ← check_eq_accepted_iff]
  constructor
  · rintro ⟨verdict, checked, accepted⟩
    cases verdict with
    | rejected reason => contradiction
    | accepted => exact checked
  · exact fun checked => ⟨_, checked, rfl⟩

theorem narrow_eq_error_iff {render : Int → String} {min value : Int} {steps : Nat} {cause : Failure} :
    result answer (p.narrow render min steps value) = .error cause ↔
      ∃ taken < steps, ∃ last, p.Narrows answer render min taken value last ∧
        answer (p.request (render last)) = .error cause := by
  induction steps generalizing value with
  | zero => simp [narrow]
  | succ steps ih =>
    rw [narrow, bind_eq_error_iff, trial_eq_error_iff]
    constructor
    · rintro (failed | ⟨verdict, tried, later⟩)
      · exact ⟨0, by omega, value, .here value, failed⟩
      · cases verdict with
        | accepted => contradiction
        | rejected reason =>
          cases halved : halfway? min value with
          | none =>
            simp only [halved] at later
            contradiction
          | some next =>
            simp only [halved] at later
            obtain ⟨taken, few, last, reached, failed⟩ := ih.mp later
            have refused := refuses_iff.mpr ⟨reason, tried⟩
            exact ⟨taken + 1, by omega, last, .down refused halved reached, failed⟩
    · rintro ⟨taken, few, last, reached, failed⟩
      cases reached with
      | here => exact .inl failed
      | down refused halved later =>
        obtain ⟨reason, tried⟩ := refuses_iff.mp refused
        refine .inr ⟨_, tried, ?_⟩
        simp only [halved]
        exact ih.mpr ⟨_, by omega, last, later, failed⟩

theorem findMax_eq_error_iff {lead name separator : String} {min : Int} {cause : Failure} :
    result answer (p.findMax lead name separator min) = .error cause ↔
      p.SearchFault answer (renderParam lead name separator) min cause := by
  simp only [findMax]
  split
  · next above =>
    constructor
    · intro failed
      contradiction
    · rintro (⟨within, -⟩ | ⟨within, -⟩) <;> omega
  · next within =>
    have within : min ≤ ceiling := by omega
    rw [bind_eq_error_iff, trial_eq_error_iff]
    constructor
    · rintro (failed | ⟨verdict, tried, later⟩)
      · exact .least within failed
      · cases verdict with
        | rejected reason => contradiction
        | accepted =>
          obtain ⟨taken, few, last, reached, failed⟩ := narrow_eq_error_iff.mp later
          exact .narrowing within (trial_eq_accepted_iff.mp tried) few reached failed
    · rintro (⟨-, failed⟩ | ⟨-, taken, few, reached, failed⟩)
      · exact .inl failed
      · exact .inr ⟨_, trial_eq_accepted_iff.mpr taken,
          narrow_eq_error_iff.mpr ⟨_, few, _, reached, failed⟩⟩

theorem resolve_eq_error_iff {lead separator : String} {d : Definition} {cause : Failure} :
    result answer (p.resolve lead separator d) = .error cause ↔
      d.max ≤ d.min ∧ p.SearchFault answer (renderParam lead d.name separator) d.min cause := by
  rw [resolve, Definition.needsSearch]
  split
  · next placeholder =>
    rw [bind_eq_error_iff, findMax_eq_error_iff]
    simp [of_decide_eq_true placeholder]
  · next several =>
    have several : ¬d.max ≤ d.min := by simpa using several
    simp [several]

end FlagSurvey.Probe

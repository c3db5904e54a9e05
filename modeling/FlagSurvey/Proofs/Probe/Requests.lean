import FlagSurvey.Probe.Range
import FlagSurvey.Proofs.Trial.Asking

/-! What a probe asks for. A check tries the flag and at most its inverse; a search tries values from the
least one up to the ceiling and nothing else, whatever the compiler answers. -/
namespace FlagSurvey.Probe

open Plan

variable (p : Probe)

def Tries (render : Int → String) (min : Int) (request : Request) : Prop :=
  ∃ value, min ≤ value ∧ value ≤ ceiling ∧ request = p.request (render value)

variable {p} {own : Request → Prop}

theorem asks_single_trial {flag : String} (h : own (p.request flag)) : Asks own (p.trial flag) :=
  (asks_trial h).map Verdict.of

theorem asks_check {flag : String} (direct : own (p.request flag))
    (second : ∀ inverse, invert? flag = some inverse → own (p.request inverse)) :
    Asks own (p.check flag) := by
  refine (asks_single_trial direct).bind fun verdict => ?_
  cases verdict with
  | rejected reason => exact .done _
  | accepted =>
    cases inverted : invert? flag with
    | none => exact .done _
    | some inverse =>
      refine (asks_single_trial (second inverse inverted)).bind fun verdict => ?_
      cases verdict <;> exact .done _

theorem asks_isValid {flag : String} (direct : own (p.request flag))
    (second : ∀ inverse, invert? flag = some inverse → own (p.request inverse)) :
    Asks own (p.isValid flag) :=
  (asks_check direct second).map Verdict.isAccepted

theorem asks_narrow {render : Int → String} {min value : Int} {steps : Nat} (lower : min ≤ value)
    (upper : value ≤ ceiling) : Asks (p.Tries render min) (p.narrow render min steps value) := by
  induction steps generalizing value with
  | zero => exact .done _
  | succ steps ih =>
    refine (asks_single_trial ⟨value, lower, upper, rfl⟩).bind fun verdict => ?_
    cases verdict with
    | accepted => exact .done _
    | rejected reason =>
      cases halved : halfway? min value with
      | none => exact .done _
      | some next =>
        obtain ⟨lower, upper⟩ := halfway?_bounds halved
        exact ih lower upper

theorem asks_findMax (lead name separator : String) (min : Int) :
    Asks (p.Tries (renderParam lead name separator) min) (p.findMax lead name separator min) := by
  rw [findMax]
  split
  · exact .done _
  · next within =>
    have within : min ≤ ceiling := by omega
    refine (asks_single_trial ⟨min, Int.le_refl min, within, rfl⟩).bind fun verdict => ?_
    cases verdict with
    | rejected reason => exact .done _
    | accepted => exact asks_narrow within (Int.le_refl ceiling)

theorem asks_resolve (lead separator : String) (d : Definition) :
    Asks (p.Tries (renderParam lead d.name separator) d.min) (p.resolve lead separator d) := by
  rw [resolve]
  split
  · exact (asks_findMax lead d.name separator d.min).bind fun bound => .done _
  · exact .done _

end FlagSurvey.Probe

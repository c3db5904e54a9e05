import FlagSurvey.Flag.Inverse
import FlagSurvey.Trial.Plan

/-! The probe of one flag. A flag is tried by compiling a fixed test program with it; a switch that has
an inverse is usable only if its inverse compiles too. The inverse is not itself inverted. -/
namespace FlagSurvey

structure Probe where
  compiler : String
  testProgram : String
  limit : Duration
  deriving DecidableEq, Repr

namespace Probe

def request (p : Probe) (flag : String) : Request := ⟨.compile p.compiler flag p.testProgram, p.limit⟩

def trial (p : Probe) (flag : String) : Plan Verdict := Verdict.of <$> .trial (p.request flag)

def check (p : Probe) (flag : String) : Plan Verdict := do
  match ← p.trial flag with
  | .rejected reason => pure (.rejected reason)
  | .accepted =>
    match invert? flag with
    | none => pure .accepted
    | some inverse =>
      match ← p.trial inverse with
      | .rejected _ => pure (.rejected .asymmetricInverse)
      | .accepted => pure .accepted

def isValid (p : Probe) (flag : String) : Plan Bool := Verdict.isAccepted <$> p.check flag

theorem trial_eq (p : Probe) (flag : String) :
    p.trial flag = .ask (p.request flag) fun outcome => .done (Verdict.of outcome) := rfl

theorem check_of_invert?_none (p : Probe) {flag : String} (h : invert? flag = none) :
    p.check flag = p.trial flag := by
  rw [check, trial_eq, Plan.ask_bind]
  refine congrArg (Plan.ask _) (funext fun outcome => ?_)
  simp only [Plan.done_bind]
  cases Verdict.of outcome with
  | accepted => simp [h]
  | rejected reason => rfl

end Probe
end FlagSurvey

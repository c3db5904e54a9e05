import FlagSurvey.Probe.Switch
import FlagSurvey.Proofs.Trial.Reliable
import FlagSurvey.Trial.Script

/-! What a probe comes to against a reliable executor. The direct trial is always made, the trial of the
inverse only after a direct trial that was taken, and a flag is usable when every trial it got was taken. -/
namespace FlagSurvey.Probe

variable (p : Probe) (answer : Request → Outcome)

def takes (flag : String) : Bool := (Verdict.of (answer (p.request flag))).isAccepted

def usable (flag : String) : Bool := p.takes answer flag && (invert? flag).all (p.takes answer)

def judged (flag : String) : Verdict :=
  match Verdict.of (answer (p.request flag)) with
  | .rejected reason => .rejected reason
  | .accepted =>
    if (invert? flag).all (p.takes answer) then .accepted else .rejected .asymmetricInverse

def trialsOf (flag : String) : List Request :=
  p.request flag :: if p.takes answer flag then (invert? flag).toList.map p.request else []

/-- The run that made these requests tried the flag, and the compiler took it. -/
def Proven (asked : List Request) (flag : String) : Prop :=
  p.request flag ∈ asked ∧ p.takes answer flag = true

theorem Proven.mono {p : Probe} {answer : Request → Outcome} {asked further : List Request}
    {flag : String} (h : p.Proven answer asked flag) (sub : asked ⊆ further) :
    p.Proven answer further flag := ⟨sub h.1, h.2⟩

theorem isAccepted_judged (flag : String) :
    (p.judged answer flag).isAccepted = p.usable answer flag := by
  rw [judged, usable, takes]
  cases Verdict.of (answer (p.request flag)) with
  | rejected reason => rfl
  | accepted => cases (invert? flag).all (p.takes answer) <;> rfl

theorem gives_single_trial (flag : String) :
    (p.trial flag).Gives answer (Verdict.of (answer (p.request flag))) [p.request flag] :=
  (Plan.gives_trial (p.request flag)).map Verdict.of

theorem gives_check (flag : String) :
    (p.check flag).Gives answer (p.judged answer flag) (p.trialsOf answer flag) := by
  rw [check, judged, trialsOf, takes]
  refine (p.gives_single_trial answer flag).bind ?_
  cases Verdict.of (answer (p.request flag)) with
  | rejected reason => exact Plan.gives_done _
  | accepted =>
    cases invert? flag with
    | none => exact Plan.gives_done _
    | some inverse =>
      refine (p.gives_single_trial answer inverse).bind ?_
      split
      · next reason refused =>
        simp only [Option.all_some, takes, refused, Verdict.isAccepted]
        exact Plan.gives_done _
      · next accepted =>
        simp only [Option.all_some, takes, accepted, Verdict.isAccepted]
        exact Plan.gives_done _

theorem gives_isValid (flag : String) :
    (p.isValid flag).Gives answer (p.usable answer flag) (p.trialsOf answer flag) := by
  rw [← p.isAccepted_judged answer]
  exact (p.gives_check answer flag).map Verdict.isAccepted

theorem takes_passing (flag : String) : p.takes (fun _ => .passing) flag = true := by
  change (Verdict.of .passing).isAccepted = true
  decide

theorem usable_passing (flag : String) : p.usable (fun _ => .passing) flag = true := by
  rw [usable, takes_passing, Bool.true_and]
  cases invert? flag with
  | none => rfl
  | some inverse => exact p.takes_passing inverse

variable {answer}

theorem mem_trialsOf {flag : String} {request : Request} :
    request ∈ p.trialsOf answer flag ↔ request = p.request flag ∨
      p.takes answer flag = true ∧ ∃ inverse, invert? flag = some inverse ∧ request = p.request inverse := by
  rw [trialsOf, List.mem_cons]
  refine or_congr_right ?_
  cases p.takes answer flag with
  | false => simp
  | true => simp [eq_comm]

end FlagSurvey.Probe

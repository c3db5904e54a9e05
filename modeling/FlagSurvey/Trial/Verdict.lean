import FlagSurvey.Duration
import FlagSurvey.Text.Search

/-! How a trial came out, and what that says of the flag it tried. -/
namespace FlagSurvey

open Text Number

structure Outcome where
  exitCode : Option Int
  signal : Option Int
  stdout : String
  stderr : String
  elapsed : Duration
  timedOut : Bool
  deriving DecidableEq, Repr

namespace Outcome

def succeeded (o : Outcome) : Bool := !o.timedOut && o.exitCode == some 0

/-- A trial that ran out of time took unbounded time. -/
def elapsedSeconds (o : Outcome) : Binary64 :=
  if o.timedOut then .infinite false else o.elapsed.toSeconds

end Outcome

inductive Rejection where
  | compileError
  | timedOut
  | crashed
  | unsupportedByTarget
  | renamed
  | asymmetricInverse
  deriving DecidableEq, Repr

def Rejection.text : Rejection → String
  | .compileError => "results in compile error"
  | .timedOut => "exceeded the compile limit"
  | .crashed => "crashed the compiler"
  | .unsupportedByTarget => "not supported by target"
  | .renamed => "renamed"
  | .asymmetricInverse => "inverse form does not work"

inductive Verdict where
  | accepted
  | rejected (reason : Rejection)
  deriving DecidableEq, Repr

def unsupportedMarker : String := "warning: this target"

def renamedMarker : String := "has been renamed"

namespace Verdict

def isAccepted : Verdict → Bool
  | .accepted => true
  | .rejected _ => false

def of (o : Outcome) : Verdict :=
  if o.timedOut then .rejected .timedOut
  else if o.signal.isSome then .rejected .crashed
  else if o.exitCode != some 0 then .rejected .compileError
  else if mentions o.stderr unsupportedMarker then .rejected .unsupportedByTarget
  else if mentions o.stderr renamedMarker then .rejected .renamed
  else .accepted

end Verdict
end FlagSurvey

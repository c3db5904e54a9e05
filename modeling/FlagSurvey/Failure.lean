/-! What ends a survey before its report. A flag that is refused, a trial that runs out of time and a
record that cannot be read are not failures; they only leave something out of the report. -/
namespace FlagSurvey

inductive Failure where
  | launch (program cause : String)
  | interrupted
  | config (reason : String)
  | pool (reason : String)
  | io (reason : String)
  | other (reason : String)
  | unusableLimit
  deriving DecidableEq, Repr

namespace Failure

def message : Failure → String
  | .launch program cause => "Failed to launch '" ++ program ++ "': " ++ cause
  | .interrupted => "Interrupted by user"
  | .config reason => "Configuration error: " ++ reason
  | .pool reason => "Worker pool error: " ++ reason
  | .io reason => "IO error: " ++ reason
  | .other reason => reason
  | .unusableLimit => "Time limit is no span of time"

/-- A configuration is refused before anything has run; every other failure ends a run. -/
def isFatal : Failure → Bool
  | .config _ => false
  | _ => true

end Failure
end FlagSurvey

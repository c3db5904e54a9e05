import FlagSurvey.Flag.Tunable
import FlagSurvey.Version

/-! Reports of surveys: the compiler, and what of it a tuner may set. -/
namespace FlagSurvey

open Number

structure Report where
  compilerName : String
  version : Option Version
  /-- In the order of a report: optimizer switches, target switches, then parameters. -/
  tunables : List Tunable
  unresolved : List String
  deriving DecidableEq, Repr

namespace Report

def switchCount (r : Report) : Nat := (r.tunables.filter fun t => !t.isRange).length

def paramCount (r : Report) : Nat := (r.tunables.filter Tunable.isRange).length

def isEmpty (r : Report) : Bool := r.tunables.isEmpty

def summary (r : Report) : String :=
  decimalText r.switchCount ++ " flags, " ++ decimalText r.paramCount ++ " params"

end Report
end FlagSurvey

import FlagSurvey.Config
import FlagSurvey.Trial.Plan
import FlagSurvey.Version

/-! Compilers as they describe themselves: one run for the version and one for each listing, of which
only what they print counts. -/
namespace FlagSurvey

structure Compiler where
  path : String
  version : Option Version
  targetHelp : String
  optimizerHelp : String
  paramsHelp : String
  deriving DecidableEq, Repr

namespace Compiler

def capture (path invocation : String) (limit : Duration) : Plan String :=
  Outcome.stdout <$> .trial ⟨.inform path invocation, limit⟩

def resolve (config : CompilerSection) (limit : Duration) : Plan Compiler := do
  let version ← capture config.path "--version" limit
  let targetHelp ← capture config.path config.targetHelp limit
  let optimizerHelp ← capture config.path config.optimizerHelp limit
  let paramsHelp ← capture config.path config.paramsHelp limit
  pure ⟨config.path, Version.scan version, targetHelp, optimizerHelp, paramsHelp⟩

end Compiler
end FlagSurvey

import FlagSurvey.CommandLine
import FlagSurvey.Config.File
import FlagSurvey.Machine.Directory
import FlagSurvey.Survey.Basic
import FlagSurvey.Survey.Yaml

/-! Whole runs: a command line asks for a configuration, the survey that it describes is carried out, and
its report is written. -/
namespace FlagSurvey

inductive RunFault where
  | refused (refusal : CommandLine.Refusal)
  | path (fault : PathFault)
  | unreadableConfig
  | failed (failure : Failure)
  deriving DecidableEq, Repr

namespace Config

def load (directory : Directory) (path : String) : Except RunFault Config :=
  match directory.readText path with
  | .error fault => .error (.path fault)
  | .ok text =>
    match ofText? text with
    | some config => .ok config
    | none => .error .unreadableConfig

/-- The configuration that an invocation asks for: that of its file or the standard one, its own values
in place, and valid. -/
def ofInvocation (directory : Directory) (invocation : Invocation) : Except RunFault Config := do
  let base ← match invocation.config with
    | some path => load directory path
    | none => pure {}
  let config := base.override invocation.overrides
  match config.validate with
  | .error failure => .error (.failed failure)
  | .ok () => pure config

end Config

def Directory.textFor (directory : Directory) (path : String) : Except Failure String :=
  match directory.readText path with
  | .ok text => .ok text
  | .error fault => .error (.io fault.message)

def Report.writeTo (report : Report) (path : String) (directory : Directory) :
    Except RunFault Directory :=
  match directory.writeWithFolders path (Text.encode report.yaml) with
  | .ok written => .ok written
  | .error fault => .error (.path fault)

def Survey.run (executor : Config → Executor Directory) (config : Config) (directory : Directory) :
    Except RunFault (Report × Directory) :=
  let plan := Survey.plan directory.textFor .listed config.pool.effectiveSize config
  let run := plan.run (executor config) directory
  match run.result with
  | .error failure => .error (.failed failure)
  | .ok report => (report.writeTo config.output.path run.state).map fun written => (report, written)

def runWords (executor : Config → Executor Directory) (words : List String) (directory : Directory) :
    Except RunFault (String × Directory) := do
  let invocation ← match Invocation.ofWords words with
    | .ok invocation => pure invocation
    | .error refusal => .error (.refused refusal)
  let config ← Config.ofInvocation directory invocation
  let (report, written) ← Survey.run executor config directory
  pure (report.summary ++ "\n", written)

end FlagSurvey

import FlagSurvey.Machine.Executor
import FlagSurvey.Survey.Run

/-! The command line. The files that its words name, and those that its configuration names, are brought
into the directory of the machine; the survey runs there, and its report is written out. -/
namespace FlagSurvey

def CommandLine.Refusal.text : CommandLine.Refusal → String
  | .unknownArgument => "unknown argument"
  | .unreadableValue => "a value cannot be read"
  | .missingValue => "a value is missing"
  | .repeated => "an option is given twice"
  | .needlessValue => "a flag takes no value"
  | .helpWanted => "usage: flagsurvey [--config FILE] [--compiler PATH] [--source FILE] [--output FILE] ..."
  | .versionWanted => "flagsurvey"

def RunFault.text : RunFault → String
  | .refused refusal => refusal.text
  | .path fault => fault.message
  | .unreadableConfig => "the configuration cannot be read"
  | .failed failure => failure.message

/-- Brings the file at a path, if there is one, into the directory; one that names its interpreter may be
run. -/
def Directory.fetch (directory : Directory) (path : String) : IO Directory := do
  try
    let content := (← IO.FS.readBinFile path).toList
    return directory.place path content (content.take 2 == [0x23, 0x21])
  catch _ => return directory

def pathsFor (words : List String) (directory : Directory) : List String :=
  match Invocation.ofWords words with
  | .error _ => words
  | .ok invocation =>
    match Config.ofInvocation directory invocation with
    | .error _ => words
    | .ok config =>
      words ++ config.params.definitions.toList ++ [config.compiler.path, config.probe.testProgram]

end FlagSurvey

open FlagSurvey

def main (words : List String) : IO UInt32 := do
  let named ← words.foldlM Directory.fetch Machine.standard
  let directory ← (pathsFor words named).foldlM Directory.fetch named
  let executor (config : Config) : Executor Directory := Machine.executor config.probe.memoryLimit
  match runWords executor words directory with
  | .error fault =>
    IO.eprintln ("error: " ++ fault.text)
    return 1
  | .ok (printed, last) =>
    match (Config.ofInvocation directory <$> (Invocation.ofWords words).toOption).bind Except.toOption with
    | some config =>
      match last.read config.output.path with
      | .ok content => IO.FS.writeBinFile config.output.path (ByteArray.mk content.toArray)
      | .error _ => pure ()
    | none => pure ()
    IO.print printed
    return 0

import FlagSurvey.Definition.Document
import FlagSurvey.Survey.Extraction
import FlagSurvey.Survey.Report

/-! One survey: the compiler describes itself, its switches are tried, and then the parameters that it
shares with the definitions. The limits are turned into spans of time where they are first needed. -/
namespace FlagSurvey

structure SurveySchedule where
  candidates : Schedule Candidate
  definitions : Schedule Definition

def SurveySchedule.listed : SurveySchedule := ⟨.listed, .listed⟩

namespace Survey

def limit (span : Option Duration) : Plan Duration :=
  match span with
  | some span => .done span
  | none => .fail .unusableLimit

def definitions (readText : String → Except Failure String) (config : Config) :
    Plan (List Definition) :=
  match config.params.definitions with
  | none => .done []
  | some path => (fun text => (Definition.Document.ofText text).definitions) <$>
      Plan.ofExcept (readText path)

def plan (readText : String → Except Failure String) (schedule : SurveySchedule) (poolSize : Nat)
    (config : Config) : Plan Report := do
  let helpLimit ← limit config.helpLimit?
  let compiler ← Compiler.resolve config.compiler helpLimit
  let compileLimit ← limit config.compileLimit?
  let x := Extractor.ofSize ⟨compiler.path, config.probe.testProgram, compileLimit⟩ poolSize
  let switches ← x.extract schedule.candidates compiler
  let definitions ← definitions readText config
  let params ← x.extractParams schedule.definitions compiler definitions config.params.lead
    config.params.separator
  pure ⟨compiler.path, compiler.version, Tunable.arrange (switches ++ params.tunables),
    params.unresolved⟩

end Survey
end FlagSurvey

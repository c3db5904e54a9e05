import FlagSurvey.Probe.Range
import FlagSurvey.Survey.Compiler
import FlagSurvey.Survey.Listing
import FlagSurvey.Trial.Schedule

/-! What of a compiler's listings, and of the definitions it lists, is usable. Candidates are tried side by
side; the trials of one candidate follow each other. -/
namespace FlagSurvey

structure Extractor where
  probe : Probe
  poolSize : Nat
  poolSize_pos : 0 < poolSize

structure ParamOutcome where
  tunables : List Tunable
  unresolved : List String
  deriving DecidableEq, Repr

namespace ParamOutcome

/-- Takes in a range before the ones already sorted out; one of a single value is left out. -/
def add (lead separator : String) (range : ResolvedRange) (outcome : ParamOutcome) :
    ParamOutcome :=
  match Tunable.ofRange? range lead separator with
  | some tunable => { outcome with tunables := tunable :: outcome.tunables }
  | none =>
    if range.resolved then outcome
    else { outcome with unresolved := range.name :: outcome.unresolved }

def ofRanges (lead separator : String) (ranges : List ResolvedRange) : ParamOutcome :=
  let outcome := ranges.foldr (add lead separator) ⟨[], []⟩
  { outcome with unresolved := outcome.unresolved.mergeSort (· ≤ ·) }

end ParamOutcome

namespace Extractor

def ofSize (probe : Probe) (size : Nat) : Extractor := ⟨probe, max 1 size, by omega⟩

def candidates (compiler : Compiler) : List Candidate :=
  Listing.switches compiler.optimizerHelp .optimizer ++ Listing.switches compiler.targetHelp .target

def keep? (x : Extractor) (candidate : Candidate) : Plan (Option Candidate) := do
  let valid ← x.probe.isValid candidate.text
  pure (if valid then some candidate else none)

def validate (x : Extractor) (schedule : Schedule Candidate) (candidates : List Candidate) :
    Plan (List Candidate) := do
  let kept ← schedule.gather x.keep? candidates
  pure (kept.filterMap id)

def extract (x : Extractor) (schedule : Schedule Candidate) (compiler : Compiler) :
    Plan (List Tunable) := do
  let accepted ← x.validate schedule (candidates compiler)
  pure (accepted.map fun candidate => .ofSwitch candidate.text)

/-- The range of a definition; none if its own default is refused. -/
def range? (x : Extractor) (lead separator : String) (d : Definition) :
    Plan (Option ResolvedRange) := do
  let valid ← x.probe.isValid (renderParam lead d.name separator d.default)
  if valid then some <$> x.probe.resolve lead separator d else pure none

def extractParams (x : Extractor) (schedule : Schedule Definition) (compiler : Compiler)
    (definitions : List Definition) (lead separator : String) : Plan ParamOutcome := do
  let listed := Listing.parameters compiler.paramsHelp
  let known := definitions.filter fun d => listed.contains d.name
  let ranges ← schedule.gather (x.range? lead separator) known
  pure (ParamOutcome.ofRanges lead separator (ranges.filterMap id))

end Extractor
end FlagSurvey

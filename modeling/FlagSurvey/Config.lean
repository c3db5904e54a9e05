import FlagSurvey.Duration
import FlagSurvey.Failure
import FlagSurvey.Text.Blank

/-! Configurations of a survey, the values a command line puts in their place, and what is refused before
anything runs. -/
namespace FlagSurvey

open Number

structure CompilerSection where
  path : String := "gcc"
  targetHelp : String := "--help=target"
  optimizerHelp : String := "--help=optimizers"
  paramsHelp : String := "--help=params"
  helpLimit : Binary64 := .ofNat 30
  deriving DecidableEq, Repr

structure ProbeSection where
  testProgram : String := "test/helloworld.c"
  compileLimit : Binary64 := .ofNat 5
  memoryLimit : Option Nat := none
  deriving DecidableEq, Repr

structure PoolSection where
  parallelism : Nat := 2
  size : Option Nat := none
  deriving DecidableEq, Repr

/-- Where parameters are defined, and what stands before a parameter's name and between it and a value.
Without definitions no parameter is surveyed. -/
structure ParamsSection where
  definitions : Option String := none
  lead : String := "--param "
  separator : String := "="
  deriving DecidableEq, Repr

structure OutputSection where
  path : String := "compiler_flags.yaml"
  deriving DecidableEq, Repr

structure Config where
  compiler : CompilerSection := {}
  probe : ProbeSection := {}
  pool : PoolSection := {}
  params : ParamsSection := {}
  output : OutputSection := {}
  deriving DecidableEq, Repr

structure Overrides where
  compiler : Option String := none
  targetHelp : Option String := none
  optimizerHelp : Option String := none
  paramsHelp : Option String := none
  testProgram : Option String := none
  compileLimit : Option Binary64 := none
  memoryLimit : Option Nat := none
  parallelism : Option Nat := none
  poolSize : Option Nat := none
  definitions : Option String := none
  output : Option String := none
  deriving DecidableEq, Repr

/-- Trials at a time, never none; doubling stops at the greatest unsigned integer of sixty-four bits. -/
def PoolSection.effectiveSize (pool : PoolSection) : Nat :=
  max 1 (pool.size.getD (min (2 * pool.parallelism) (unsignedBound - 1)))

namespace Config

def override (config : Config) (o : Overrides) : Config where
  compiler :=
    { path := o.compiler.getD config.compiler.path
      targetHelp := o.targetHelp.getD config.compiler.targetHelp
      optimizerHelp := o.optimizerHelp.getD config.compiler.optimizerHelp
      paramsHelp := o.paramsHelp.getD config.compiler.paramsHelp
      helpLimit := config.compiler.helpLimit }
  probe :=
    { testProgram := o.testProgram.getD config.probe.testProgram
      compileLimit := o.compileLimit.getD config.probe.compileLimit
      memoryLimit := o.memoryLimit <|> config.probe.memoryLimit }
  pool :=
    { parallelism := o.parallelism.getD config.pool.parallelism
      size := o.poolSize <|> config.pool.size }
  params := { config.params with definitions := o.definitions <|> config.params.definitions }
  output := { path := o.output.getD config.output.path }

def objection (config : Config) : Option String :=
  if (Text.trim config.compiler.path.toList).isEmpty then some "compiler path is empty"
  else if !usable config.probe.compileLimit then
    some ("compile limit must be a positive number of seconds, got " ++ config.probe.compileLimit.text)
  else if !usable config.compiler.helpLimit then
    some ("help limit must be a positive number of seconds, got " ++ config.compiler.helpLimit.text)
  else if config.pool.parallelism == 0 then some "parallelism must be at least 1"
  else if config.pool.size == some 0 then some "pool size must be at least 1"
  else if config.probe.memoryLimit == some 0 then some "memory limit must be non-zero when given"
  else none
where
  usable (seconds : Binary64) : Bool := seconds.isFinite && seconds.isPositive

def validate (config : Config) : Except Failure Unit :=
  match config.objection with
  | none => .ok ()
  | some reason => .error (.config reason)

def compileLimit? (config : Config) : Option Duration := Duration.ofSeconds? config.probe.compileLimit

def helpLimit? (config : Config) : Option Duration := Duration.ofSeconds? config.compiler.helpLimit

end Config
end FlagSurvey

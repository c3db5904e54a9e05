import FlagSurvey.Duration
import FlagSurvey.Text.Blank

/-! Commands of trials: a program and its arguments, with no shell between them. -/
namespace FlagSurvey

structure Command where
  program : String
  args : List String
  deriving DecidableEq, Repr

namespace Command

/-- The compiler on the words of a flag and then the test program, so that a flag holding a blank
becomes two arguments. -/
def compile (compiler flag testProgram : String) : Command :=
  ⟨compiler, Text.wordsOf flag ++ [testProgram]⟩

def inform (compiler invocation : String) : Command := ⟨compiler, Text.wordsOf invocation⟩

def text (c : Command) : String := c.args.foldl (fun line arg => line ++ " " ++ arg) c.program

end Command

structure Request where
  command : Command
  deadline : Duration
  deriving DecidableEq, Repr

end FlagSurvey

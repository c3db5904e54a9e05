import FlagSurvey.Flag.Tunable

/-! Definitions of numeric parameters: a name, what it does, its default and the bounds it declares. -/
namespace FlagSurvey

structure Definition where
  name : String
  description : String
  default : Int
  min : Int
  max : Int
  deriving DecidableEq, Repr

/-- Bounds that leave no second value are placeholders, and the upper one has to be searched for. -/
def Definition.needsSearch (d : Definition) : Bool := d.max ≤ d.min

end FlagSurvey

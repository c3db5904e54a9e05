import FlagSurvey.Number.Bounded
import FlagSurvey.Number.Decimal

/-! Spans of time in whole nanoseconds, below two to the sixty-fourth seconds. -/
namespace FlagSurvey

open Number

structure Duration where
  nanos : Nat
  deriving DecidableEq, Repr, Inhabited

namespace Duration

def perSecond : Nat := 1000000000

/-- The longest span, which stands for a trial that never ended by itself. -/
def max : Duration := ⟨unsignedBound * perSecond - 1⟩

def ofNanos (n : Nat) : Duration := ⟨n⟩

def ofMillis (n : Nat) : Duration := ⟨n * 1000000⟩

def seconds (d : Duration) : Nat := d.nanos / perSecond

def subsecond (d : Duration) : Nat := d.nanos % perSecond

/-- The nanosecond nearest to a number of seconds, a tie going to the even one; none for a negative
number, for no number, and for one of two to the sixty-fourth seconds or more. -/
def ofSeconds? (x : Binary64) : Option Duration :=
  match x with
  | .finite negative significand scale =>
    if negative && significand != 0 then none
    else
      let nanos := Binary64.roundDiv (significand * Nat.pow 2 scale * perSecond) Binary64.one
      if nanos < unsignedBound * perSecond then some ⟨nanos⟩ else none
  | _ => none

def toSeconds (d : Duration) : Binary64 :=
  .addMagnitudes (.ofNat d.seconds) (.roundRatio false d.subsecond perSecond)

end Duration
end FlagSurvey

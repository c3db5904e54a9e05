import FlagSurvey.Flag.Category
import FlagSurvey.Number.Bounded

/-! Options proven usable, as a tuner takes them: a switch with the text that begins its on form and its
off form, or a numeric parameter with the range of its values. -/
namespace FlagSurvey

open Number

/-- One below the greatest signed integer of thirty-two bits, so that no value a tuner writes overflows
the option reader of a compiler. -/
def ceiling : Int := 2147483646

/-- What the search of a parameter's range came to; `resolved` is false when no value was accepted. -/
structure ResolvedRange where
  name : String
  min : Int
  max : Int
  resolved : Bool
  deriving DecidableEq, Repr

def renderParam (lead name separator : String) (value : Int) : String :=
  lead ++ name ++ separator ++ decimalText value

inductive Tunable where
  | onOff (name onLead offLead : String)
  | range (name lead separator : String) (min max : Int)
  deriving DecidableEq, Repr

namespace Tunable

def ofSwitch (text : String) : Tunable :=
  let lead := text.toList.take 2
  .onOff (String.ofList (text.toList.drop 2)) (String.ofList lead)
    (String.ofList (lead ++ ['n', 'o', '-']))

def ofRange? (range : ResolvedRange) (lead separator : String) : Option Tunable :=
  if range.min < range.max then some (.range range.name lead separator range.min range.max)
  else none

def name : Tunable → String
  | .onOff name .. => name
  | .range name .. => name

def isRange : Tunable → Bool
  | .onOff .. => false
  | .range .. => true

def category : Tunable → Category
  | .onOff _ onLead _ => .of onLead
  | .range .. => .param

def precedes (a b : Tunable) : Bool :=
  a.category.rank < b.category.rank ||
    (a.category.rank == b.category.rank && decide (a.name ≤ b.name))

def arrange (tunables : List Tunable) : List Tunable := tunables.mergeSort precedes

theorem ofRange?_eq_some_iff {range : ResolvedRange} {lead separator : String} {t : Tunable} :
    ofRange? range lead separator = some t ↔
      range.min < range.max ∧ t = .range range.name lead separator range.min range.max := by
  simp only [ofRange?]
  split
  · next h => simp [h, eq_comm]
  · next h => simp [h]

theorem arrange_perm (tunables : List Tunable) : (arrange tunables).Perm tunables :=
  List.mergeSort_perm tunables precedes

end Tunable
end FlagSurvey

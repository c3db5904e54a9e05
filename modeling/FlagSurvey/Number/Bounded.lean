import FlagSurvey.Number.Digits

/-! Integers of sixty-four bits. Arithmetic is exact, and a result outside the range is no result. -/
namespace FlagSurvey.Number

def least : Int := -9223372036854775808

def greatest : Int := 9223372036854775807

def Fits (v : Int) : Prop := least ≤ v ∧ v ≤ greatest

instance (v : Int) : Decidable (Fits v) := inferInstanceAs (Decidable (_ ∧ _))

def checked (v : Int) : Option Int := if Fits v then some v else none

theorem checked_eq_some_iff {v w : Int} : checked v = some w ↔ v = w ∧ Fits v := by
  simp only [checked]
  split <;> simp_all

theorem checked_eq_none_iff {v : Int} : checked v = none ↔ ¬Fits v := by
  simp only [checked]
  split <;> simp_all

/-- One past the greatest unsigned integer of sixty-four bits. -/
def unsignedBound : Nat := 18446744073709551616

def readSigned? (text : String) : Option Int :=
  let (negative, digits) := takeSign text.toList
  (readNat? 10 digits).bind fun n => checked (if negative then -(n : Int) else n)

def readUnsigned? (text : String) : Option Nat :=
  match text.toList with
  | '-' :: _ => none
  | chars =>
    match readNat? 10 (takeSign chars).2 with
    | some n => if n < unsignedBound then some n else none
    | none => none

end FlagSurvey.Number

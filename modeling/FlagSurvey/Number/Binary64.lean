import FlagSurvey.Number.Digits

/-! Binary floating-point numbers of sixty-four bits, as the exact numbers they denote. A finite one is
a significand below two to the fifty-third times a power of two, counted in units of the least positive
one; the significand has its fifty-third bit unless the power is zero. Rounding takes the nearest, of
two equally near the one with an even significand, and an infinity past the last. -/
namespace FlagSurvey.Number

inductive Binary64 where
  | nan
  | infinite (negative : Bool)
  | finite (negative : Bool) (significand scale : Nat)
  deriving DecidableEq, Repr, Inhabited

namespace Binary64

/-- Units in one: the least positive number is one over this. -/
def one : Nat := Nat.pow 2 1074

/-- The quotient rounded to an integer, a tie going to the even one. -/
def roundDiv (numerator denominator : Nat) : Nat :=
  let floor := numerator / denominator
  let twice := 2 * (numerator % denominator)
  if denominator < twice || (twice == denominator && floor % 2 == 1) then floor + 1 else floor

def roundRatio (negative : Bool) (numerator denominator : Nat) : Binary64 :=
  let units := numerator * one
  let scale := (units / denominator).log2 - 52
  let significand := roundDiv units (denominator * Nat.pow 2 scale)
  let (significand, scale) :=
    if significand == Nat.pow 2 53 then (Nat.pow 2 52, scale + 1) else (significand, scale)
  if 2045 < scale then .infinite negative else .finite negative significand scale

def ofNat (n : Nat) : Binary64 := roundRatio false n 1

def ofInt (v : Int) : Binary64 := roundRatio (v < 0) v.natAbs 1

def units? : Binary64 → Option Nat
  | .finite _ significand scale => some (significand * Nat.pow 2 scale)
  | _ => none

def isPositive : Binary64 → Bool
  | .finite negative significand _ => !negative && significand != 0
  | .infinite negative => !negative
  | .nan => false

def isFinite : Binary64 → Bool
  | .finite .. => true
  | _ => false

def addMagnitudes (x y : Binary64) : Binary64 :=
  match x.units?, y.units? with
  | some a, some b => roundRatio false (a + b) one
  | _, _ => .infinite false

def bits : Binary64 → Nat
  | .nan => 0x7ff8000000000000
  | .infinite negative => sign negative + 0x7ff0000000000000
  | .finite negative significand scale =>
    sign negative +
      if significand < Nat.pow 2 52 then significand else scale * Nat.pow 2 52 + significand
where
  sign (negative : Bool) : Nat := if negative then Nat.pow 2 63 else 0

theorem roundDiv_within (numerator : Nat) {denominator : Nat} (h : 0 < denominator) :
    2 * (roundDiv numerator denominator * denominator) ≤ 2 * numerator + denominator ∧
      2 * numerator ≤ 2 * (roundDiv numerator denominator * denominator) + denominator := by
  have split := Nat.div_add_mod numerator denominator
  have small := Nat.mod_lt numerator h
  simp only [roundDiv]
  split
  · rename_i up
    rw [Nat.add_mul, Nat.one_mul, Nat.mul_comm (numerator / denominator)]
    simp only [Bool.or_eq_true, decide_eq_true_eq, Bool.and_eq_true, beq_iff_eq] at up
    omega
  · rename_i down
    rw [Nat.mul_comm (numerator / denominator)]
    simp only [Bool.or_eq_true, decide_eq_true_eq, Bool.and_eq_true, beq_iff_eq, not_or] at down
    omega

end Binary64
end FlagSurvey.Number

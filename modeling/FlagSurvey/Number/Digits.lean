/-! Digits of a number in a base up to thirty-six, the letters of either case standing for ten and up. -/
namespace FlagSurvey.Number

def digit? (base : Nat) (c : Char) : Option Nat :=
  let value :=
    if '0' ≤ c && c ≤ '9' then c.toNat - '0'.toNat
    else if 'a' ≤ c && c ≤ 'z' then c.toNat - 'a'.toNat + 10
    else if 'A' ≤ c && c ≤ 'Z' then c.toNat - 'A'.toNat + 10
    else base
  if value < base then some value else none

theorem lt_of_digit? {base value : Nat} {c : Char} (h : digit? base c = some value) :
    value < base := by
  simp only [digit?] at h
  grind

def readFrom (base : Nat) : Nat → List Char → Option Nat
  | value, [] => some value
  | value, c :: rest =>
    match digit? base c with
    | some d => readFrom base (value * base + d) rest
    | none => none

def readNat? (base : Nat) : List Char → Option Nat
  | [] => none
  | text => readFrom base 0 text

theorem readFrom_append (base value : Nat) (first second : List Char) :
    readFrom base value (first ++ second) =
      (readFrom base value first).bind (readFrom base · second) := by
  induction first generalizing value with
  | nil => rfl
  | cons c rest ih =>
    rw [List.cons_append, readFrom, readFrom]
    cases digit? base c with
    | none => rfl
    | some d => exact ih _

def isDigit (c : Char) : Bool := '0' ≤ c && c ≤ '9'

def isLetter (c : Char) : Bool := ('a' ≤ c && c ≤ 'z') || ('A' ≤ c && c ≤ 'Z')

def isAlphanumeric (c : Char) : Bool := isDigit c || isLetter c

def decimal (n : Nat) : List Char := Nat.toDigits 10 n

def decimalInt (v : Int) : List Char :=
  if v < 0 then '-' :: decimal v.natAbs else decimal v.natAbs

def decimalText (v : Int) : String := String.ofList (decimalInt v)

def takeSign : List Char → Bool × List Char
  | '-' :: rest => (true, rest)
  | '+' :: rest => (false, rest)
  | text => (false, text)

end FlagSurvey.Number

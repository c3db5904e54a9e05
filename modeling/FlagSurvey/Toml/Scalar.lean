import FlagSurvey.Number.Bounded
import FlagSurvey.Number.Decimal
import FlagSurvey.Toml.Quoted

/-! Values without parts: texts, truth values, numbers and moments. Underscores may stand between the
digits of a number. An integer has sixty-four bits and no zeros before it; a float has a fraction or a
power of ten, and is not past the greatest one. -/
namespace FlagSurvey.Toml

open Number

inductive Scalar where
  | text (value : String)
  | truth (value : Bool)
  | integer (value : Int)
  | float (value : Binary64)
  | moment (text : String)
  deriving DecidableEq, Repr

def moreDigits (isDigitHere : Char → Bool) : List Char → List Char × List Char
  | '_' :: c :: rest =>
    if isDigitHere c then
      let (digits, after) := moreDigits isDigitHere rest
      (c :: digits, after)
    else ([], '_' :: c :: rest)
  | c :: rest =>
    if isDigitHere c then
      let (digits, after) := moreDigits isDigitHere rest
      (c :: digits, after)
    else ([], c :: rest)
  | [] => ([], [])

def digits (isDigitHere : Char → Bool) : Reader (List Char)
  | [] => none
  | c :: rest =>
    if isDigitHere c then
      let (more, after) := moreDigits isDigitHere rest
      some (c :: more, after)
    else none

def wholeDigits : Reader (List Char)
  | '0' :: rest => some (['0'], rest)
  | text => digits isDigit text

def integerOf (base : Nat) (negative : Bool) (digits : List Char) : Option Scalar :=
  (readNat? base digits).bind fun n =>
    (checked (if negative then -(n : Int) else n)).map .integer

def basedInteger (base : Nat) : Reader Scalar := fun text =>
  match digits (fun c => (digit? base c).isSome) text with
  | some (found, rest) => (integerOf base false found).map fun value => (value, rest)
  | none => none

def power : Reader Int := fun text =>
  let (negative, magnitude) := takeSign text
  match digits isDigit magnitude with
  | some (found, rest) =>
    (readNat? 10 found).map fun n => (if negative then -(n : Int) else n, rest)
  | none => none

def floatOf (negative : Bool) (numeral : Numeral) (rest : List Char) : Option (Scalar × List Char) :=
  match numeral.round negative with
  | some (.infinite false) => none
  | some value => some (.float value, rest)
  | none => none

def decimalNumber (negative : Bool) : Reader Scalar := fun text =>
  match wholeDigits text with
  | none => none
  | some (whole, '.' :: rest) =>
    match digits isDigit rest with
    | none => none
    | some (fraction, rest) =>
      let written := whole ++ fraction
      let shift : Int := -fraction.length
      match rest with
      | mark :: more =>
        if mark == 'e' || mark == 'E' then
          match power more with
          | some (exponent, after) => floatOf negative ⟨written, exponent + shift⟩ after
          | none => none
        else floatOf negative ⟨written, shift⟩ rest
      | [] => floatOf negative ⟨written, shift⟩ []
  | some (whole, mark :: more) =>
    if mark == 'e' || mark == 'E' then
      match power more with
      | some (exponent, after) => floatOf negative ⟨whole, exponent⟩ after
      | none => none
    else (integerOf 10 negative whole).map fun value => (value, mark :: more)
  | some (whole, []) => (integerOf 10 negative whole).map fun value => (value, [])

def number : Reader Scalar
  | '0' :: 'x' :: rest => basedInteger 16 rest
  | '0' :: 'o' :: rest => basedInteger 8 rest
  | '0' :: 'b' :: rest => basedInteger 2 rest
  | text =>
    let (negative, magnitude) := takeSign text
    match magnitude with
    | 'i' :: 'n' :: 'f' :: rest => some (.float (.infinite negative), rest)
    | 'n' :: 'a' :: 'n' :: rest => some (.float .nan, rest)
    | _ => decimalNumber negative magnitude

def digitsWithin (count low high : Nat) : Reader Nat := fun text =>
  let taken := text.take count
  if taken.length = count && taken.all isDigit then
    match readNat? 10 taken with
    | some n => if low ≤ n && n ≤ high then some (n, text.drop count) else none
    | none => none
  else none

def isLeapYear (year : Nat) : Bool := year % 4 == 0 && (year % 100 != 0 || year % 400 == 0)

def daysIn (year month : Nat) : Nat :=
  if month == 2 then if isLeapYear year then 29 else 28
  else if month == 4 || month == 6 || month == 9 || month == 11 then 30
  else 31

def pastDate? (text : List Char) : Option (List Char) := do
  let (year, rest) ← digitsWithin 4 0 9999 text
  let ((), rest) ← Reader.exactly ['-'] rest
  let (month, rest) ← digitsWithin 2 1 12 rest
  let ((), rest) ← Reader.exactly ['-'] rest
  let (_, rest) ← digitsWithin 2 1 (daysIn year month) rest
  pure rest

/-- The text after a time of day; a minute may have a leap second. -/
def pastTime? (text : List Char) : Option (List Char) := do
  let (_, rest) ← digitsWithin 2 0 23 text
  let ((), rest) ← Reader.exactly [':'] rest
  let (_, rest) ← digitsWithin 2 0 59 rest
  let ((), rest) ← Reader.exactly [':'] rest
  let (_, rest) ← digitsWithin 2 0 60 rest
  match rest with
  | '.' :: more =>
    let (_, after) ← Reader.run1 isDigit more
    pure after
  | _ => pure rest

def pastOffset (text : List Char) : List Char :=
  let distance (rest : List Char) : Option (List Char) := do
    let (_, rest) ← digitsWithin 2 0 23 rest
    let ((), rest) ← Reader.exactly [':'] rest
    let (_, rest) ← digitsWithin 2 0 59 rest
    pure rest
  match text with
  | 'Z' :: rest => rest
  | 'z' :: rest => rest
  | '+' :: rest => (distance rest).getD text
  | '-' :: rest => (distance rest).getD text
  | _ => text

def pastMoment? (text : List Char) : Option (List Char) :=
  match pastDate? text with
  | none => pastTime? text
  | some rest =>
    match rest with
    | mark :: more =>
      if mark == 'T' || mark == 't' || mark == ' ' then
        match pastTime? more with
        | some after => some (pastOffset after)
        | none => some rest
      else some rest
    | [] => some []

def moment : Reader Scalar := fun text =>
  (pastMoment? text).map fun rest =>
    (.moment (String.ofList (text.take (text.length - rest.length))), rest)

def scalar : Reader Scalar
  | 't' :: 'r' :: 'u' :: 'e' :: rest => some (.truth true, rest)
  | 'f' :: 'a' :: 'l' :: 's' :: 'e' :: rest => some (.truth false, rest)
  | text =>
    (quotedText.map fun chars => .text (String.ofList chars)) text <|> moment text <|> number text

end FlagSurvey.Toml

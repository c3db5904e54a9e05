import FlagSurvey.Number.Binary64

/-! Decimal numerals. A numeral is an optional sign and either a word for an infinity or for no number,
in either case, or digits with an optional point among or beside them and an optional power of ten. Its
value is the nearest number. -/
namespace FlagSurvey.Number

structure Numeral where
  digits : List Char
  exponent : Int

def Numeral.round (negative : Bool) (numeral : Numeral) : Option Binary64 := do
  let leading := numeral.digits.dropWhile (· == '0')
  let value ← readFrom 10 0 leading
  let order := leading.length + numeral.exponent
  if value == 0 || order < -330 then pure (.finite negative 0 0)
  else if 310 < order then pure (.infinite negative)
  else if 0 ≤ numeral.exponent then
    pure (.roundRatio negative (value * Nat.pow 10 numeral.exponent.toNat) 1)
  else
    pure (.roundRatio negative value (Nat.pow 10 numeral.exponent.natAbs))

def readExponent? : List Char → Option Int
  | [] => some 0
  | mark :: rest =>
    if mark == 'e' || mark == 'E' then
      let (negative, digits) := takeSign rest
      (readNat? 10 digits).map fun n => if negative then -(n : Int) else n
    else none

def readNumeral? (text : List Char) : Option Numeral := do
  let whole := text.takeWhile isDigit
  let rest := text.dropWhile isDigit
  let (fraction, rest) :=
    match rest with
    | '.' :: more => (more.takeWhile isDigit, more.dropWhile isDigit)
    | _ => ([], rest)
  if whole.isEmpty && fraction.isEmpty then none
  let exponent ← readExponent? rest
  pure ⟨whole ++ fraction, exponent - fraction.length⟩

def readBinary64? (text : String) : Option Binary64 :=
  let (negative, magnitude) := takeSign text.toList
  let word := magnitude.map Char.toLower
  if word == ['i', 'n', 'f'] || word == ['i', 'n', 'f', 'i', 'n', 'i', 't', 'y'] then
    some (.infinite negative)
  else if word == ['n', 'a', 'n'] then some .nan
  else (readNumeral? magnitude).bind (Numeral.round negative)

/-- The fewest digits that read back, nearest to the number among those, and the place of the point
before them. Of two equally near the greater is taken. -/
def shortest (significand scale : Nat) : List Char × Int :=
  let narrow := significand == Nat.pow 2 52 && scale != 0
  let value := 4 * significand * Nat.pow 2 scale
  let low := (4 * significand - if narrow then 1 else 2) * Nat.pow 2 scale
  let high := (4 * significand + 2) * Nat.pow 2 scale
  let unit := 4 * Binary64.one
  let closed := significand % 2 == 0
  let holds (n d : Nat) : Bool :=
    if closed then low * d ≤ n && n ≤ high * d else low * d < n && n < high * d
  let place : Int :=
    if unit ≤ value then ((decimal (value / unit)).length : Int)
    else 1 - ((decimal ((unit - 1) / value)).length : Int)
  let attempt (count : Nat) : Option (List Char × Int) :=
    let power := place - count
    -- One step of the grid is `step / part` units.
    let step := unit * Nat.pow 10 power.toNat
    let part := Nat.pow 10 (-power).toNat
    let below := value * part / step
    let above := below + 1
    let belowHolds := holds (below * step) part
    let aboveHolds := holds (above * step) part
    let chosen :=
      if belowHolds && (!aboveHolds || value * part - below * step < above * step - value * part)
      then some below
      else if aboveHolds then some above else none
    chosen.map fun n =>
      let digits := decimal n
      (digits, place + ((digits.length : Int) - count))
  match (List.range 17).findSome? fun i => attempt (i + 1) with
  | some found => found
  | none => (decimal (value / unit), place)

def positional (digits : List Char) (place : Int) : List Char :=
  let kept := (digits.reverse.dropWhile (· == '0')).reverse
  if place ≤ 0 then '0' :: '.' :: (List.replicate place.natAbs '0' ++ kept)
  else if kept.length ≤ place.toNat then kept ++ List.replicate (place.toNat - kept.length) '0'
  else kept.take place.toNat ++ '.' :: kept.drop place.toNat

def Binary64.text : Binary64 → String
  | .nan => "NaN"
  | .infinite negative => if negative then "-inf" else "inf"
  | .finite negative significand scale =>
    let magnitude :=
      if significand == 0 then ['0']
      else
        let (digits, place) := shortest significand scale
        positional digits place
    String.ofList (if negative then '-' :: magnitude else magnitude)

end FlagSurvey.Number

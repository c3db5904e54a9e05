import FlagSurvey.Number.Bounded

/-! Formatted output: backslash escapes, and formats whose directives take one argument each. -/
namespace FlagSurvey.Shell.Format

open Number

/-- The character that an escape stands for, after its backslash, and the text after it. An escape that is
none leaves the backslash. -/
def escaped (text : List Char) : Char × List Char :=
  match text with
  | 'a' :: rest => ('\x07', rest)
  | 'b' :: rest => ('\x08', rest)
  | 'e' :: rest => ('\x1b', rest)
  | 'f' :: rest => ('\x0c', rest)
  | 'n' :: rest => ('\n', rest)
  | 'r' :: rest => ('\r', rest)
  | 't' :: rest => ('\t', rest)
  | 'v' :: rest => ('\x0b', rest)
  | '\\' :: rest => ('\\', rest)
  | _ =>
    let digits := (text.take 3).takeWhile fun c => '0' ≤ c && c ≤ '7'
    match readNat? 8 digits with
    | some value => (Char.ofNat (value % 256), text.drop digits.length)
    | none => ('\\', text)

/-- A text with its escapes carried out, and whether it asks for nothing more to be written. An octal
number may have a zero of its own in front. -/
def unescape : Nat → List Char → List Char × Bool
  | 0, _ => ([], false)
  | _, [] => ([], false)
  | _, '\\' :: 'c' :: _ => ([], true)
  | steps + 1, '\\' :: rest =>
    let start := match rest with
      | '0' :: d :: more => if '0' ≤ d && d ≤ '7' then d :: more else rest
      | _ => rest
    let (c, after) := escaped start
    let (more, stops) := unescape steps after
    (c :: more, stops)
  | steps + 1, c :: rest =>
    let (more, stops) := unescape steps rest
    (c :: more, stops)

def line (words : List (List Char)) : List Char :=
  let (ends, words) := match words with
    | first :: rest => if first == "-n".toList then ([], rest) else (['\n'], words)
    | [] => (['\n'], [])
  let text := [' '].intercalate words
  let (shown, stops) := unescape (text.length + 1) text
  if stops then shown else shown ++ ends

structure Style where
  left : Bool
  zeros : Bool
  plus : Bool
  space : Bool
  alternate : Bool
  width : Nat
  precision : Option Nat

def Style.ofFlags (flags : List Char) : Style :=
  ⟨flags.contains '-', flags.contains '0', flags.contains '+', flags.contains ' ',
    flags.contains '#', 0, none⟩

def Style.pad (style : Style) (text : List Char) : List Char :=
  let fill := List.replicate (style.width - text.length) ' '
  if style.left then text ++ fill else fill ++ text

def Style.number (style : Style) (sign digits : List Char) : List Char :=
  let digits := match style.precision with
    | some p =>
      if p == 0 && digits == ['0'] then [] else List.replicate (p - digits.length) '0' ++ digits
    | none => digits
  if style.zeros && !style.left && style.precision.isNone then
    sign ++ List.replicate (style.width - (sign.length + digits.length)) '0' ++ digits
  else style.pad (sign ++ digits)

def Style.signed (style : Style) (v : Int) : List Char :=
  let sign := if v < 0 then ['-'] else if style.plus then ['+'] else if style.space then [' '] else []
  style.number sign (decimal v.natAbs)

def Style.unsigned (style : Style) (conversion : Char) (v : Int) : List Char :=
  let n := (if v < 0 then v + unsignedBound else v).toNat
  let lead := if !style.alternate || n == 0 then []
    else if conversion == 'x' then ['0', 'x']
    else if conversion == 'X' then ['0', 'X']
    else if conversion == 'o' then ['0']
    else []
  let digits :=
    if conversion == 'o' then Nat.toDigits 8 n
    else if conversion == 'x' then Nat.toDigits 16 n
    else if conversion == 'X' then (Nat.toDigits 16 n).map Char.toUpper
    else decimal n
  style.number lead digits

def numberOf (greatest : Int) (argument : List Char) : Int × Option String :=
  match argument with
  | [] => (0, none)
  | '\x27' :: c :: _ => (c.toNat, none)
  | '"' :: c :: _ => (c.toNat, none)
  | _ =>
    let start := argument.dropWhile fun c => c == ' ' || c == '\t' || c == '\n'
    let (negative, digits) := takeSign start
    let (base, digits) := match digits with
      | '0' :: x :: d :: rest =>
        if (x == 'x' || x == 'X') && (digit? 16 d).isSome then (16, d :: rest) else (8, digits)
      | '0' :: _ => (8, digits)
      | _ => (10, digits)
    let run := digits.takeWhile fun c => (digit? base c).isSome
    let value : Int := (readNat? base run).getD 0
    let value := if negative then -value else value
    if run.isEmpty then (0, some "expected numeric value")
    else if run.length < digits.length then (value, some "not completely converted")
    else if value < least then (least, some outOfRange)
    else if greatest < value then (greatest, some outOfRange)
    else (value, none)
where
  outOfRange : String := "Numerical result out of range"

structure Result where
  text : List Char
  complaints : List (List Char)
  arguments : List (List Char)
  used : Bool
  stops : Bool
  unusable : Bool

def measure (text : List Char) (arguments : List (List Char)) :
    Option Int × List Char × List (List Char) :=
  match text with
  | '*' :: rest => (some (numberOf greatest (arguments.headD [])).1, rest, arguments.drop 1)
  | _ =>
    let digits := text.takeWhile isDigit
    ((readNat? 10 digits).map fun n => (n : Int), text.drop digits.length, arguments)

def pass : Nat → List Char → Result → Result
  | 0, _, result => result
  | _, [], result => result
  | steps + 1, '\\' :: rest, result =>
    let (c, after) := escaped rest
    pass steps after { result with text := c :: result.text }
  | steps + 1, '%' :: '%' :: rest, result => pass steps rest { result with text := '%' :: result.text }
  | steps + 1, '%' :: rest, result =>
    let flags := rest.takeWhile fun c => ['#', '-', '+', ' ', '0'].contains c
    let (width, after, arguments) := measure (rest.drop flags.length) result.arguments
    let (precision, after, arguments) := match after with
      | '.' :: more =>
        let (p, after, arguments) := measure more arguments
        (some (p.getD 0), after, arguments)
      | _ => (none, after, arguments)
    let style := Style.ofFlags flags
    let style := { style with
      left := style.left || width.any (· < 0)
      width := (width.getD 0).natAbs
      precision := precision.bind fun p => if p < 0 then none else some p.toNat }
    let argument := arguments.headD []
    let result := { result with arguments := arguments.drop 1, used := true }
    let add (text : List Char) (result : Result) : Result :=
      { result with text := text.reverse ++ result.text }
    let cut (text : List Char) : List Char := match style.precision with
      | some p => text.take p
      | none => text
    let numeric (most : Int) (shown : Int → List Char) (more : List Char) : Result :=
      let (value, wrong) := numberOf most argument
      let said := wrong.toList.map fun w => argument ++ ": ".toList ++ w.toList
      pass steps more (add (shown value) { result with complaints := said ++ result.complaints })
    match after with
    | [] => { result with
        complaints := "missing format character".toList :: result.complaints
        stops := true
        unusable := true }
    | c :: more =>
      match c with
      | 's' => pass steps more (add (style.pad (cut argument)) result)
      | 'c' => pass steps more (add (style.pad (argument.take 1)) result)
      | 'b' =>
        let (shown, stops) := unescape (argument.length + 1) argument
        let result := add (style.pad (cut shown)) result
        if stops then { result with stops } else pass steps more result
      | 'd' => numeric greatest style.signed more
      | 'i' => numeric greatest style.signed more
      | _ =>
        if ['o', 'u', 'x', 'X'].contains c then numeric (unsignedBound - 1) (style.unsigned c) more
        else
          let directive := '%' :: rest.take (rest.length - more.length)
          { result with
            complaints := (directive ++ ": invalid directive".toList) :: result.complaints
            stops := true
            unusable := true }
  | steps + 1, c :: rest, result => pass steps rest { result with text := c :: result.text }

def passes (format : List Char) : Nat → Result → Result
  | 0, result => result
  | steps + 1, result =>
    let result := pass (format.length + 1) format { result with used := false }
    if result.stops || !result.used || result.arguments.isEmpty then result
    else passes format steps result

def apply (format : List Char) (arguments : List (List Char)) : List Char × List (List Char) × Bool :=
  let result := passes format (arguments.length + 1) ⟨[], [], arguments, false, false, false⟩
  (result.text.reverse, result.complaints.reverse, result.unusable)

end FlagSurvey.Shell.Format

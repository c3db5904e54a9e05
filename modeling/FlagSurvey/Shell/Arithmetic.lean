import FlagSurvey.Number.Bounded

/-! Arithmetic of a shell: terms over words of sixty-four bits that wrap around, with variables that hold
texts of numbers and may be assigned to. -/
namespace FlagSurvey.Shell.Arithmetic

open Number

inductive Fault where
  | expected (what : String)
  | divisionByZero
  | notNumber (text : List Char)
  deriving DecidableEq, Repr

def Fault.message (text : List Char) : Fault → List Char
  | .expected what => within what
  | .divisionByZero => within "division by zero"
  | .notNumber value => "Illegal number: ".toList ++ value
where
  within (what : String) : List Char :=
    ("arithmetic expression: " ++ what ++ ": \"").toList ++ text ++ ['"']

inductive Binary where
  | multiply | divide | remainder
  | add | subtract
  | shiftLeft | shiftRight
  | less | atMost | greater | atLeast
  | equal | different
  | and | xor | or
  deriving DecidableEq, Repr

namespace Binary

def ofSymbol? : String → Option Binary
  | "*" => some .multiply
  | "/" => some .divide
  | "%" => some .remainder
  | "+" => some .add
  | "-" => some .subtract
  | "<<" => some .shiftLeft
  | ">>" => some .shiftRight
  | "<" => some .less
  | "<=" => some .atMost
  | ">" => some .greater
  | ">=" => some .atLeast
  | "==" => some .equal
  | "!=" => some .different
  | "&" => some .and
  | "^" => some .xor
  | "|" => some .or
  | _ => none

def level : Binary → Nat
  | .multiply | .divide | .remainder => 8
  | .add | .subtract => 7
  | .shiftLeft | .shiftRight => 6
  | .less | .atMost | .greater | .atLeast => 5
  | .equal | .different => 4
  | .and => 3
  | .xor => 2
  | .or => 1

def ofTruth (b : Bool) : Int64 := if b then 1 else 0

def apply (op : Binary) (a b : Int64) : Except Fault Int64 :=
  match op with
  | .multiply => .ok (a * b)
  | .divide => if b == 0 then .error .divisionByZero else .ok (a / b)
  | .remainder => if b == 0 then .error .divisionByZero else .ok (a % b)
  | .add => .ok (a + b)
  | .subtract => .ok (a - b)
  | .shiftLeft => .ok (a <<< b)
  | .shiftRight => .ok (a >>> b)
  | .less => .ok (ofTruth (decide (a < b)))
  | .atMost => .ok (ofTruth (decide (a ≤ b)))
  | .greater => .ok (ofTruth (decide (b < a)))
  | .atLeast => .ok (ofTruth (decide (b ≤ a)))
  | .equal => .ok (ofTruth (a == b))
  | .different => .ok (ofTruth (a != b))
  | .and => .ok (a &&& b)
  | .xor => .ok (a ^^^ b)
  | .or => .ok (a ||| b)

end Binary

inductive Unary where
  | plus | minus | complement | not
  deriving DecidableEq, Repr

def Unary.apply : Unary → Int64 → Int64
  | .plus, v => v
  | .minus, v => -v
  | .complement, v => ~~~v
  | .not, v => Binary.ofTruth (v == 0)

inductive Term where
  | number (value : Int64)
  | variable (name : List Char)
  | unary (op : Unary) (inner : Term)
  | binary (op : Binary) (first second : Term)
  | both (first second : Term)
  | either (first second : Term)
  | choice (condition yes no : Term)
  | assign (name : List Char) (op : Option Binary) (value : Term)
  deriving Repr

inductive Token where
  | number (value : Int64)
  | name (name : List Char)
  | symbol (text : String)
  deriving DecidableEq, Repr

/-- The symbols, those that begin with another before it. -/
def symbols : List String :=
  ["<<=", ">>=", "&&", "||", "==", "!=", "<=", ">=", "<<", ">>", "*=", "/=", "%=", "+=", "-=", "&=",
    "^=", "|=", "+", "-", "*", "/", "%", "<", ">", "&", "|", "^", "!", "~", "?", ":", "=", "(", ")"]

def clamp (n : Nat) : Int64 := Int64.ofInt (if (n : Int) ≤ greatest then n else greatest)

def numberAt (text : List Char) : Int64 × List Char :=
  let readIn (base : Nat) (digits : List Char) : Int64 × List Char :=
    let run := digits.takeWhile fun c => (digit? base c).isSome
    (clamp ((readNat? base run).getD 0), digits.drop run.length)
  match text with
  | '0' :: x :: d :: rest =>
    if (x == 'x' || x == 'X') && (digit? 16 d).isSome then readIn 16 (d :: rest) else readIn 8 text
  | '0' :: _ => readIn 8 text
  | _ => readIn 10 text

def isNamePart (c : Char) : Bool := isAlphanumeric c || c == '_'

def tokens : Nat → List Char → Except Fault (List Token)
  | _, [] => .ok []
  | 0, _ => .ok []
  | steps + 1, c :: rest =>
    if c == ' ' || c == '\t' || c == '\n' then tokens steps rest
    else if isDigit c then do
      let (value, after) := numberAt (c :: rest)
      return .number value :: (← tokens steps after)
    else if isNamePart c then do
      return .name (c :: rest.takeWhile isNamePart) :: (← tokens steps (rest.dropWhile isNamePart))
    else
      match symbols.find? fun symbol => symbol.toList.isPrefixOf (c :: rest) with
      | some symbol => do
        return .symbol symbol :: (← tokens steps ((c :: rest).drop symbol.length))
      | none => .ok [.symbol (String.singleton c)]

def assignment? (symbol : String) : Option (Option Binary) :=
  if symbol == "=" then some none
  else if ["<=", ">=", "==", "!="].contains symbol then none
  else
    match symbol.toList.reverse with
    | '=' :: rest => (Binary.ofSymbol? (String.ofList rest.reverse)).map some
    | _ => none

abbrev Read := Except Fault

mutual

def operand : Nat → List Token → Read (Term × List Token)
  | 0, _ => .error (.expected "expecting primary")
  | steps + 1, input =>
    let unary (op : Unary) (rest : List Token) : Read (Term × List Token) := do
      let (inner, after) ← operand steps rest
      .ok (.unary op inner, after)
    match input with
    | .number value :: rest => .ok (.number value, rest)
    | .name name :: rest => .ok (.variable name, rest)
    | .symbol "(" :: rest => do
      match ← whole steps rest with
      | (inner, .symbol ")" :: after) => .ok (inner, after)
      | _ => .error (.expected "expecting ')'")
    | .symbol "+" :: rest => unary .plus rest
    | .symbol "-" :: rest => unary .minus rest
    | .symbol "~" :: rest => unary .complement rest
    | .symbol "!" :: rest => unary .not rest
    | _ => .error (.expected "expecting primary")

def climb : Nat → Nat → Term → List Token → Read (Term × List Token)
  | 0, _, first, input => .ok (first, input)
  | steps + 1, level, first, input =>
    match input with
    | .symbol symbol :: rest =>
      match Binary.ofSymbol? symbol with
      | some op =>
        if op.level < level then .ok (first, input)
        else do
          let (second, after) ← operand steps rest
          let (second, after) ← climb steps (op.level + 1) second after
          climb steps level (.binary op first second) after
      | none => .ok (first, input)
    | _ => .ok (first, input)

def conjunction : Nat → List Token → Read (Term × List Token)
  | 0, _ => .error (.expected "expecting primary")
  | steps + 1, input => do
    let (first, rest) ← operand steps input
    let (first, rest) ← climb steps 0 first rest
    match rest with
    | .symbol "&&" :: more =>
      let (second, last) ← conjunction steps more
      .ok (.both first second, last)
    | _ => .ok (first, rest)

def disjunction : Nat → List Token → Read (Term × List Token)
  | 0, _ => .error (.expected "expecting primary")
  | steps + 1, input => do
    let (first, rest) ← conjunction steps input
    match rest with
    | .symbol "||" :: more =>
      let (second, last) ← disjunction steps more
      .ok (.either first second, last)
    | _ => .ok (first, rest)

def whole : Nat → List Token → Read (Term × List Token)
  | 0, _ => .error (.expected "expecting primary")
  | steps + 1, input => do
    let assigned := match input with
      | .name name :: .symbol symbol :: rest => (assignment? symbol).map fun op => (name, op, rest)
      | _ => none
    match assigned with
    | some (name, op, rest) =>
      let (value, after) ← whole steps rest
      .ok (.assign name op value, after)
    | none =>
      let (condition, rest) ← disjunction steps input
      match rest with
      | .symbol "?" :: more =>
        let (yes, more) ← whole steps more
        match more with
        | .symbol ":" :: more =>
          let (no, last) ← whole steps more
          .ok (.choice condition yes no, last)
        | _ => .error (.expected "expecting ':'")
      | _ => .ok (condition, rest)

end

def termOf (text : List Char) : Read Term := do
  let input ← tokens (text.length + 1) text
  match ← whole (8 * (input.length + 1)) input with
  | (term, []) => .ok term
  | _ => .error (.expected "expecting EOF")

/-- The number that the text of a variable writes; an empty text is zero. -/
def valueOf (text : List Char) : Read Int64 :=
  let isBlank (c : Char) : Bool := c == ' ' || c == '\t' || c == '\n'
  let start := text.dropWhile isBlank
  if start.isEmpty then .ok 0
  else
    let (negative, digits) := takeSign start
    let (value, rest) := numberAt digits
    if (digits.head?.any isDigit) && rest.all isBlank then .ok (if negative then -value else value)
    else .error (.notNumber text)

/-- The variables that a term has assigned to, the latest first. -/
abbrev Assigned := List (List Char × Int64)

variable (holds : List Char → List Char)

def lookUp (assigned : Assigned) (name : List Char) : Read Int64 :=
  match assigned.lookup name with
  | some value => .ok value
  | none => valueOf (holds name)

def Term.value (assigned : Assigned) : Term → Read (Int64 × Assigned)
  | .number value => .ok (value, assigned)
  | .variable name => do return (← lookUp holds assigned name, assigned)
  | .unary op inner => do
    let (v, assigned) ← inner.value assigned
    .ok (op.apply v, assigned)
  | .binary op first second => do
    let (a, assigned) ← first.value assigned
    let (b, assigned) ← second.value assigned
    return (← op.apply a b, assigned)
  | .both first second => do
    let (a, assigned) ← first.value assigned
    if a == 0 then .ok (0, assigned)
    else
      let (b, assigned) ← second.value assigned
      .ok (Binary.ofTruth (b != 0), assigned)
  | .either first second => do
    let (a, assigned) ← first.value assigned
    if a != 0 then .ok (1, assigned)
    else
      let (b, assigned) ← second.value assigned
      .ok (Binary.ofTruth (b != 0), assigned)
  | .choice condition yes no => do
    let (c, assigned) ← condition.value assigned
    if c != 0 then yes.value assigned else no.value assigned
  | .assign name op inner => do
    let (v, assigned) ← inner.value assigned
    let v ← match op with
      | none => .ok v
      | some op => do op.apply (← lookUp holds assigned name) v
    .ok (v, (name, v) :: assigned)

def evaluate (text : List Char) : Read (Int64 × Assigned) := do
  let term ← termOf text
  let (value, assigned) ← term.value holds []
  .ok (value, assigned.reverse)

end FlagSurvey.Shell.Arithmetic

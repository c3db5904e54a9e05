import FlagSurvey.Text.Utf8

/-! Shell scripts as trees. Texts are octets, each of them as the character of its number, since nothing in
a script looks at more than one octet at a time. -/
namespace FlagSurvey.Shell

def octetsOf (text : String) : List Char := (Text.encode text).map fun octet => Char.ofNat octet.toNat

def textOf (octets : List Char) : String :=
  Text.decodeLenient (octets.map fun c => c.toNat.toUInt8)

/-- What becomes of the value of a parameter. Those with a word in place of a missing value may take an
empty value for a missing one; those that cut take the shortest match or the longest. -/
inductive Operation where
  | value
  | length
  | orDefault (ifEmpty : Bool)
  | orAssign (ifEmpty : Bool)
  | orFail (ifEmpty : Bool)
  | unless (ifEmpty : Bool)
  | cutStart (longest : Bool)
  | cutEnd (longest : Bool)
  | invalid
  deriving DecidableEq, Repr

inductive Direction where
  | input
  | output
  | append
  | sameInput
  | sameOutput
  | document
  deriving DecidableEq, Repr

mutual

inductive Part where
  | text (value : List Char) (quoted : Bool)
  | parameter (name : List Char) (operation : Operation) (argument : List Part) (quoted : Bool)
  | output (body : Command) (quoted : Bool)
  | number (expression : List Part) (quoted : Bool)

inductive Redirection where
  | to (descriptor : Nat) (direction : Direction) (target : List Part)

inductive Command where
  | simple (line : Nat) (assignments : List (List Char × List Part)) (words : List (List Part))
      (redirections : List Redirection)
  | redirected (body : Command) (redirections : List Redirection)
  | negated (body : Command)
  | pipeline (stages : List Command)
  | both (first second : Command)
  | either (first second : Command)
  | list (items : List (Bool × Command))
  | choice (condition consequent : Command) (alternative : Option Command)
  | loop (wanted : Bool) (condition body : Command)
  | each (name : List Char) (items : Option (List (List Part))) (body : Command)
  | cases (subject : List Part) (arms : List (List (List Part) × Command))
  | subshell (body : Command)
  | define (name : List Char) (body : Command)

end

abbrev Word := List Part

instance : Inhabited Command := ⟨.list []⟩

inductive SyntaxFault where
  | unterminatedQuote
  | unterminatedBrace
  | unterminatedNumber
  | badLoopVariable
  | badFunctionName
  /-- A token with some line ends from it to the end of the script. -/
  | unexpected (token : String) (expected : Option String) (linesLeft : Nat)
  deriving DecidableEq, Repr

def SyntaxFault.message : SyntaxFault → String
  | .unterminatedQuote => "Unterminated quoted string"
  | .unterminatedBrace => "Missing '\x7d'"
  | .unterminatedNumber => "Missing '))'"
  | .badLoopVariable => "Bad for loop variable"
  | .badFunctionName => "Bad function name"
  | .unexpected token none _ => token ++ " unexpected"
  | .unexpected token (some expected) _ => token ++ " unexpected (expecting " ++ expected ++ ")"

def SyntaxFault.line (lines : Nat) : SyntaxFault → Nat
  | .unexpected _ _ linesLeft => lines + 1 - linesLeft
  | _ => lines + 1

end FlagSurvey.Shell

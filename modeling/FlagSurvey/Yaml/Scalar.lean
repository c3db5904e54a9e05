import FlagSurvey.Text.Search
import FlagSurvey.Text.Quoted

/-! Texts as scalars of a block document. A text is plain where that leaves no doubt of what it is, in
single quotes where a reader could take it for something else, in double quotes where a character needs
an escape, and a literal block where it has more than one line. No line is folded. -/
namespace FlagSurvey.Yaml

def isBreak (c : Char) : Bool :=
  c == '\n' || c == '\r' || c == '\u0085' || c == '\u2028' || c == '\u2029'

def isPlainlyPrintable (c : Char) : Bool :=
  c == '\n' || (' ' ≤ c && c ≤ '~') ||
    ('\u00a0' ≤ c && c != '\ufeff' && c != '\ufffe' && c != '\uffff')

def endsWord : Option Char → Bool
  | none => true
  | some c => c == ' ' || c == '\t' || c == '\x00' || isBreak c

def isIndicator (c : Char) : Bool :=
  ['#', ',', '[', ']', '{', '}', '&', '*', '!', '|', '>', '\x27', '"', '%', '@', '\x60'].contains c

def opensOtherwise : List Char → Bool
  | [] => true
  | '-' :: '-' :: '-' :: _ => true
  | '.' :: '.' :: '.' :: _ => true
  | c :: rest =>
    isIndicator c || ((c == '?' || c == ':' || c == '-') && endsWord rest.head?)

def isCutShort : List Char → Bool
  | c :: d :: rest =>
    (d == ':' && endsWord rest.head?) || (d == '#' && endsWord (some c)) || isCutShort (d :: rest)
  | _ => false

/-- Whether a character of the first class stands right before one of the second. -/
def hasPair (first second : Char → Bool) : List Char → Bool
  | c :: d :: rest => (first c && second d) || hasPair first second (d :: rest)
  | _ => false

def isSpace (c : Char) : Bool := c == ' '

def isEdge (c : Option Char) : Bool := c.any fun c => isSpace c || isBreak c

def plainAllowed (text : List Char) : Bool :=
  !opensOtherwise text && !isCutShort text && text.all isPlainlyPrintable && !text.any isBreak &&
    !isEdge text.head? && !isEdge text.getLast?

def singleAllowed (text : List Char) : Bool :=
  text.all isPlainlyPrintable && !hasPair isSpace isBreak text && !hasPair isBreak isSpace text

def literalAllowed (text : List Char) : Bool :=
  text.all isPlainlyPrintable && !hasPair isSpace isBreak text && !text.getLast?.any isSpace

def otherWords : List String :=
  ["true", "false", "yes", "no", "on", "off", "y", "n", "null", "nil", "~", "nan"]

def isAmbiguous (text : List Char) : Bool :=
  match text with
  | [] => true
  | c :: _ =>
    otherWords.contains (String.ofList (text.map Char.toLower)) || ('0' ≤ c && c ≤ '9') ||
      c == '-' || c == '+' || c == '.'

inductive Style where
  | plain
  | single
  | double
  | literal
  deriving DecidableEq, Repr

def styleOf (text : List Char) : Style :=
  if text.contains '\n' then if literalAllowed text then .literal else .double
  else if !isAmbiguous text && plainAllowed text then .plain
  else if singleAllowed text then .single
  else .double

def spaces (n : Nat) : List Char := List.replicate n ' '

/-- A quote is written twice, and a line after a break begins at the indentation. -/
def singleOn (indent : Nat) (afterBreak : Bool) : List Char → List Char
  | [] => if afterBreak then spaces indent else []
  | c :: rest =>
    if isBreak c then c :: singleOn indent true rest
    else
      let written := if c == '\x27' then [c, c] else [c]
      (if afterBreak && c != ' ' then spaces indent else []) ++ written ++
        singleOn indent (afterBreak && c == ' ') rest

def upperHex (width n : Nat) : List Char :=
  let digits := (Text.hexDigits n).map Char.toUpper
  List.replicate (width - digits.length) '0' ++ digits

def escape (c : Char) : List Char :=
  match c with
  | '\x00' => ['\\', '0']
  | '\x07' => ['\\', 'a']
  | '\x08' => ['\\', 'b']
  | '\t' => ['\\', 't']
  | '\n' => ['\\', 'n']
  | '\x0b' => ['\\', 'v']
  | '\x0c' => ['\\', 'f']
  | '\r' => ['\\', 'r']
  | '\x1b' => ['\\', 'e']
  | '"' => ['\\', '"']
  | '\\' => ['\\', '\\']
  | '\u0085' => ['\\', 'N']
  | '\u2028' => ['\\', 'L']
  | '\u2029' => ['\\', 'P']
  | _ =>
    if c.toNat ≤ 0xff then ['\\', 'x'] ++ upperHex 2 c.toNat
    else if c.toNat ≤ 0xffff then ['\\', 'u'] ++ upperHex 4 c.toNat
    else ['\\', 'U'] ++ upperHex 8 c.toNat

def doubleChar (c : Char) : List Char :=
  if isPlainlyPrintable c && !isBreak c && c != '"' && c != '\\' then [c] else escape c

/-- What follows the bar of a literal block: the indentation if the text does not show it by its first
line, and how the line ends at its end are to be read. -/
def literalHints (text : List Char) : List Char :=
  let shown := !isEdge text.head?
  let kept := match text.reverse with
    | last :: before => if !isBreak last then ['-'] else if endsInBreak before then ['+'] else []
    | [] => ['-']
  (if shown then [] else ['2']) ++ kept
where
  endsInBreak : List Char → Bool
    | [] => true
    | c :: _ => isBreak c

def literalOn (indent : Nat) (afterBreak : Bool) : List Char → List Char
  | [] => []
  | c :: rest =>
    if isBreak c then c :: literalOn indent true rest
    else (if afterBreak then spaces indent else []) ++ c :: literalOn indent false rest

def scalarLine (indent : Nat) (text : List Char) : List Char :=
  match styleOf text with
  | .plain => text ++ ['\n']
  | .single => '\x27' :: singleOn indent false text ++ ['\x27', '\n']
  | .double => '"' :: text.flatMap doubleChar ++ ['"', '\n']
  | .literal =>
    let body := literalOn indent true text
    '|' :: literalHints text ++ '\n' :: body ++ if isBreakEnd text then [] else ['\n']
where
  isBreakEnd (text : List Char) : Bool := text.getLast?.any isBreak

end FlagSurvey.Yaml

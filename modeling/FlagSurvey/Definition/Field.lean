import FlagSurvey.Definition.Expression
import FlagSurvey.Text.Blank

/-! Fields of a record. A text is one or more literals with blanks between them, read as one; a name is
such a text or a bare word; a number is an integer expression. -/
namespace FlagSurvey

open Text Number Definition

/-- Why a record defines nothing. Texts are of the field at fault, without blanks around it. -/
inductive Malformed where
  | fieldCount (found : Nat)
  | unterminated
  | text (field : String)
  | name (field : String)
  | number (field : String) (fault : ExpressionFault)
  | unknownConstant (word : String)
  | overflow (field : String)
  | defaultBelowMin (given least : Int)
  deriving DecidableEq, Repr

def Malformed.message : Malformed → String
  | .fieldCount found => "expected 5 or 6 fields, found " ++ decimalText found
  | .unterminated => "unterminated record"
  | .text field => "malformed string literal: " ++ field
  | .name field => "invalid parameter name: " ++ quoted field
  | .number field fault => "malformed integer expression " ++ quoted field ++ ": " ++ fault.reason
  | .unknownConstant word => "unknown symbolic constant " ++ word
  | .overflow field => "integer overflow in " ++ quoted field
  | .defaultBelowMin given least =>
    "default " ++ decimalText given ++ " is below minimum " ++ decimalText least

namespace Definition

def unescape : Char → List Char
  | 'n' => ['\n']
  | 't' => ['\t']
  | '\n' => []
  | c => [c]

mutual

def literalsOn (seen : Bool) (done : List Char) : List Char → Option (List Char)
  | [] => if seen then some done.reverse else none
  | c :: rest =>
    if c == '"' then insideOn done rest
    else if isBlank c then literalsOn seen done rest
    else none

def insideOn (done : List Char) : List Char → Option (List Char)
  | [] => none
  | '\\' :: [] => none
  | '\\' :: c :: rest => insideOn (unescape c ++ done) rest
  | c :: rest => if c == '"' then literalsOn true done rest else insideOn (c :: done) rest

end

def literals? (text : List Char) : Option (List Char) := literalsOn false [] text

def shown (field : List Char) : String := String.ofList (trim field)

def textField (field : List Char) : Except Malformed String :=
  match literals? field with
  | some text => .ok (String.ofList text)
  | none => .error (.text (shown field))

def isNameChar (c : Char) : Bool := isAlphanumeric c || c == '-' || c == '_'

def nameField (field : List Char) : Except Malformed String := do
  let trimmed := trim field
  let name ← match trimmed with
    | '"' :: _ => textField trimmed
    | _ => pure (String.ofList trimmed)
  if name.toList != [] && name.toList.all isNameChar then pure name
  else .error (.name (shown field))

def numberField (field : List Char) : Except Malformed Int :=
  match Expression.evaluate field with
  | .ok value => .ok value
  | .error .overflow => .error (.overflow (shown field))
  | .error (.unknownWord name) => .error (.unknownConstant name)
  | .error fault => .error (.number (shown field) fault)

end Definition
end FlagSurvey

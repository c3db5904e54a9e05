import FlagSurvey.Flag.Tunable
import FlagSurvey.Text.Quoted
import FlagSurvey.Text.Utf8

/-! Tokens of integer expressions. Each is the longest that begins where the one before ends, with
spaces, tabs and line ends between them; a run of letters and digits that begins with a digit is one
literal, whatever it holds, so that `12ab` is a bad literal and not two tokens. -/
namespace FlagSurvey.Definition

open Number Text

inductive Token where
  | literal (value : Int)
  | word (name : String)
  | star
  | plus
  | minus
  | opening
  | closing
  deriving DecidableEq, Repr

inductive ExpressionFault where
  | unexpectedOctet (octet : Nat)
  | badLiteral (text : String)
  | unexpectedToken (token : Token)
  | unbalanced
  | empty
  | trailing
  | unknownWord (name : String)
  | overflow
  deriving DecidableEq, Repr

namespace Token

def label : Token → String
  | literal value => "Int(" ++ decimalText value ++ ")"
  | word name => "Ident(" ++ quoted name ++ ")"
  | star => "Star"
  | plus => "Plus"
  | minus => "Minus"
  | opening => "LParen"
  | closing => "RParen"

def isGap (c : Char) : Bool := c == ' ' || c == '\t' || c == '\n' || c == '\r'

def sign? : Char → Option Token
  | '*' => some star
  | '+' => some plus
  | '-' => some minus
  | '(' => some opening
  | ')' => some closing
  | _ => none

def isSuffix (c : Char) : Bool := c == 'u' || c == 'U' || c == 'l' || c == 'L'

/-- The value of a literal: decimal or, after `0x`, hexadecimal digits, the suffixes `u` and `l` in
any number dropped, and no more than the greatest signed integer of sixty-four bits. -/
def literalValue? (text : List Char) : Option Int :=
  let digits := (text.reverse.dropWhile isSuffix).reverse
  let value := match digits with
    | '0' :: 'x' :: rest => readNat? 16 rest
    | '0' :: 'X' :: rest => readNat? 16 rest
    | _ => readNat? 10 digits
  value.bind fun n => checked n

def isWordStart (c : Char) : Bool := isLetter c || c == '_'

def isWordPart (c : Char) : Bool := isAlphanumeric c || c == '_'

def firstOctetOf (c : Char) : Nat := ((encode (String.singleton c)).headD 0).toNat

def scan : List Char → Except ExpressionFault (List Token)
  | [] => .ok []
  | c :: rest =>
    if isGap c then scan rest
    else
      match sign? c with
      | some token => (token :: ·) <$> scan rest
      | none =>
        if isDigit c then
          let text := c :: rest.takeWhile isAlphanumeric
          match literalValue? text with
          | some value => (literal value :: ·) <$> scan (rest.dropWhile isAlphanumeric)
          | none => .error (.badLiteral (String.ofList text))
        else if isWordStart c then
          let name := String.ofList (c :: rest.takeWhile isWordPart)
          (word name :: ·) <$> scan (rest.dropWhile isWordPart)
        else .error (.unexpectedOctet (firstOctetOf c))
termination_by text => text.length
decreasing_by
  all_goals
    have digits := (List.dropWhile_sublist isAlphanumeric (l := rest)).length_le
    have names := (List.dropWhile_sublist isWordPart (l := rest)).length_le
    simp only [List.length_cons]
    omega

end Token

def ExpressionFault.reason : ExpressionFault → String
  | .unexpectedOctet octet => "unexpected character " ++ quotedChar (Char.ofNat octet)
  | .badLiteral text => "bad integer literal " ++ quoted text
  | .unexpectedToken token => "unexpected token " ++ token.label
  | .unbalanced => "unbalanced parenthesis"
  | .empty => "empty expression"
  | .trailing => "trailing tokens"
  | .unknownWord name => "unknown symbolic constant " ++ name
  | .overflow => "integer overflow"

end FlagSurvey.Definition

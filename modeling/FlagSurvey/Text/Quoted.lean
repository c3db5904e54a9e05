import FlagSurvey.Text.Printable

/-! Quoting for messages. A quoted text stands between its marks with the mark and the backslash
escaped, five control characters by letter, and every other character that shows no mark of its own,
or would attach to the one before it, by its code point in hexadecimal. -/
namespace FlagSurvey.Text

def hexDigits (n : Nat) : List Char := Nat.toDigits 16 n

def pointEscape (c : Char) : List Char := ['\\', 'u', '{'] ++ hexDigits c.toNat ++ ['}']

def escapeIn (mark c : Char) : List Char :=
  match c with
  | '\x00' => ['\\', '0']
  | '\t' => ['\\', 't']
  | '\n' => ['\\', 'n']
  | '\r' => ['\\', 'r']
  | '\\' => ['\\', '\\']
  | _ =>
    if c == mark then ['\\', c]
    else if isExtending c || !isPrintable c then pointEscape c
    else [c]

def quotedIn (mark : Char) (text : List Char) : List Char :=
  mark :: text.flatMap (escapeIn mark) ++ [mark]

def quoted (text : String) : String := String.ofList (quotedIn '"' text.toList)

def quotedChar (c : Char) : String := String.ofList (quotedIn '\x27' [c])

end FlagSurvey.Text

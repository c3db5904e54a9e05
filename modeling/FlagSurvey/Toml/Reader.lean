/-! Readers of a text from its front. A reader takes what it reads off the text and gives the rest, or
refuses. -/
namespace FlagSurvey.Toml

abbrev Reader (α : Type) := List Char → Option (α × List Char)

namespace Reader

variable {α β : Type}

def map (f : α → β) (reader : Reader α) : Reader β := fun text =>
  (reader text).map fun (a, rest) => (f a, rest)

def run1 (holds : Char → Bool) : Reader (List Char) := fun text =>
  match text.takeWhile holds with
  | [] => none
  | taken => some (taken, text.dropWhile holds)

def exactly : List Char → Reader Unit
  | [], text => some ((), text)
  | c :: more, d :: rest => if c == d then exactly more rest else none
  | _ :: _, [] => none

def separated (item : Reader α) (separator : Reader Unit) (text : List Char) :
    Option (List α × List Char) :=
  match item text with
  | none => none
  | some (a, rest) =>
    match separator rest with
    | none => some ([a], rest)
    | some ((), after) =>
      if after.length < text.length then
        match separated item separator after with
        | some (more, last) => some (a :: more, last)
        | none => none
      else none
termination_by text.length

end Reader

def isGap (c : Char) : Bool := c == ' ' || c == '\t'

/-- A character that may stand in a comment: none below a space but the tab, and not the delete. -/
def isShown (c : Char) : Bool := c == '\t' || (' ' ≤ c && c != '\x7f')

def newline : Reader Unit
  | '\n' :: rest => some ((), rest)
  | '\r' :: '\n' :: rest => some ((), rest)
  | _ => none

def lineEnd : Reader Unit := fun text =>
  let rest := text.dropWhile isGap
  let rest := match rest with
    | '#' :: comment => comment.dropWhile isShown
    | _ => rest
  match rest with
  | [] => some ((), [])
  | _ => newline rest

def layout : Bool → Reader Unit
  | false, [] => some ((), [])
  | true, [] => none
  | _, '\n' :: rest => layout false rest
  | _, '\r' :: '\n' :: rest => layout false rest
  | true, c :: rest => if isShown c then layout true rest else none
  | false, c :: rest =>
    if c == '#' then layout true rest
    else if isGap c then layout false rest
    else if c == '\r' then none
    else some ((), c :: rest)

end FlagSurvey.Toml

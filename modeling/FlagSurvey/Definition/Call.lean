import FlagSurvey.Definition.Lexical
import FlagSurvey.Definition.Token

/-! Calls of the defining macro in a text: its name, adjoined by no letter, digit or underscore, then
blanks, then arguments in parentheses. Comments and double-quoted literals are passed over. A call whose
parenthesis never closes has no body, and the search goes on just inside it, so that it hides no call
after it. -/
namespace FlagSurvey.Definition

open Token

/-- A place in a text: the characters before it, the last first, and those after it. -/
structure Position where
  before : List Char
  after : List Char
  deriving Repr

namespace Position

def advance (p : Position) (n : Nat) : Position :=
  ⟨(p.after.take n).reverse ++ p.before, p.after.drop n⟩

def line (p : Position) : Nat := p.before.count '\n' + 1

def text (p : Position) : List Char := p.before.reverse ++ p.after

@[simp] theorem text_advance (p : Position) (n : Nat) : (p.advance n).text = p.text := by
  simp [text, advance]

theorem length_after_advance (p : Position) (n : Nat) :
    (p.advance n).after.length = p.after.length - n := by simp [advance]

end Position

/-- A call at the place of the macro's name; the body is none if no parenthesis closes it. -/
structure Call where
  head : Position
  body : Option (List Char)
  deriving Repr

def macroName : List Char := ['D', 'E', 'F', 'P', 'A', 'R', 'A', 'M']

def isAsciiBlank (c : Char) : Bool :=
  c == ' ' || c == '\t' || c == '\n' || c == '\x0c' || c == '\r'

def commentLength : List Char → Nat
  | [] => 0
  | '*' :: '/' :: _ => 2
  | _ :: rest => commentLength rest + 1

def Position.atMacro (p : Position) : Bool :=
  macroName.isPrefixOf p.after && !p.before.head?.any isWordPart &&
    !(p.after.drop macroName.length).head?.any isWordPart

def Position.passed (p : Position) : Nat :=
  match p.after with
  | '/' :: '*' :: rest => commentLength rest + 2
  | '/' :: '/' :: rest => (rest.takeWhile (· != '\n')).length + 2
  | '"' :: rest => literalLength (.inside '"') rest + 1
  | _ => 1

/-- The place after the macro's name and the blanks that follow it. -/
def Position.pastName (p : Position) : Position :=
  let named := p.advance macroName.length
  named.advance (named.after.takeWhile isAsciiBlank).length

theorem Position.passed_pos (p : Position) : 0 < p.passed := by
  unfold passed
  split <;> omega

theorem Position.length_pastName_lt {p : Position} (h : p.atMacro = true) :
    p.pastName.after.length < p.after.length := by
  have start := (List.isPrefixOf_iff_prefix.mp (Bool.and_eq_true_iff.mp
    (Bool.and_eq_true_iff.mp h).1).1).length_le
  have size : macroName.length = 8 := rfl
  simp only [pastName, length_after_advance]
  omega

def callsFrom (p : Position) : List Call :=
  if p.after = [] then []
  else if p.atMacro = true then
    let past := p.pastName
    match past.after with
    | '(' :: inner =>
      match body? inner with
      | some (body, _) => ⟨p, some body⟩ :: callsFrom (past.advance (body.length + 2))
      | none => ⟨p, none⟩ :: callsFrom (past.advance 1)
    | _ => callsFrom past
  else callsFrom (p.advance p.passed)
termination_by p.after.length
decreasing_by
  · rw [Position.length_after_advance]
    have := Position.length_pastName_lt ‹p.atMacro = true›
    omega
  · rw [Position.length_after_advance]
    have := Position.length_pastName_lt ‹p.atMacro = true›
    omega
  · exact Position.length_pastName_lt ‹p.atMacro = true›
  · rw [Position.length_after_advance]
    have := List.length_pos_iff.mpr ‹p.after ≠ []›
    have := p.passed_pos
    omega

def calls (text : List Char) : List Call := callsFrom ⟨[], text⟩

end FlagSurvey.Definition

import FlagSurvey.Machine.Directory
import FlagSurvey.Number.Digits
import FlagSurvey.Shell.Syntax

/-! Conditions on texts, numbers and files, as words. Up to four words are read by their number, so that
any text may stand as an operand there. -/
namespace FlagSurvey.Shell.Condition

open Number

inductive Fault where
  | missingBracket
  | argumentExpected (after : List Char)
  | unexpectedOperator (word : List Char)
  | closingExpected
  | notNumber (word : List Char)
  deriving DecidableEq, Repr

def Fault.message : Fault → List Char
  | .missingBracket => "missing ]".toList
  | .argumentExpected after => after ++ ": argument expected".toList
  | .unexpectedOperator word => word ++ ": unexpected operator".toList
  | .closingExpected => "closing paren expected".toList
  | .notNumber word => "Illegal number: ".toList ++ word

abbrev Read := Except Fault

def isUnary (word : List Char) : Bool :=
  match word with
  | ['-', c] => "bcdefghknprstuwxzLSOG".toList.contains c
  | _ => false

def isBinary (word : List Char) : Bool :=
  ["=", "==", "!=", "<", ">", "-eq", "-ne", "-gt", "-ge", "-lt", "-le", "-nt", "-ot", "-ef"].contains
    (String.ofList word)

def numberOf (word : List Char) : Read Int :=
  let isBlank (c : Char) : Bool := c == ' ' || c == '\t' || c == '\n'
  let (negative, rest) := takeSign (word.dropWhile isBlank)
  let digits := rest.takeWhile isDigit
  match readNat? 10 digits with
  | some n =>
    if (rest.drop digits.length).all isBlank then .ok (if negative then -(n : Int) else n)
    else .error (.notNumber word)
  | none => .error (.notNumber word)

def unary (directory : Directory) (word operand : List Char) : Bool :=
  let found := directory.node (textOf operand)
  match word with
  | ['-', 'n'] => !operand.isEmpty
  | ['-', 'z'] => operand.isEmpty
  | ['-', 'd'] => match found with
    | .ok node => node.isFolder
    | _ => false
  | ['-', 'f'] => match found with
    | .ok (.file ..) | .ok (.tool _) => true
    | _ => false
  | ['-', 's'] => match found with
    | .ok (.file content _) => !content.isEmpty
    | .ok (.tool _) | .ok (.folder _) => true
    | _ => false
  | ['-', 'x'] => match found with
    | .ok (.file _ executable) => executable
    | .ok (.tool _) | .ok (.folder _) => true
    | _ => false
  | ['-', 'c'] => match found with
    | .ok .sink => true
    | _ => false
  | ['-', c] => ['e', 'r', 'w', 'O', 'G'].contains c && found.isOk
  | _ => false

def binary (word first second : List Char) : Read Bool := do
  let numbers (holds : Int → Int → Bool) : Read Bool := do
    let a ← numberOf first
    let b ← numberOf second
    return holds a b
  match String.ofList word with
  | "=" | "==" => return first == second
  | "!=" => return first != second
  | "<" => return decide (first < second)
  | ">" => return decide (second < first)
  | "-eq" => numbers (· == ·)
  | "-ne" => numbers (· != ·)
  | "-gt" => numbers fun a b => decide (b < a)
  | "-ge" => numbers fun a b => decide (b ≤ a)
  | "-lt" => numbers fun a b => decide (a < b)
  | "-le" => numbers fun a b => decide (a ≤ b)
  | "-ef" => return first == second
  | _ => return false

mutual

def alternatives (d : Directory) : Nat → List (List Char) → Read (Bool × List (List Char))
  | 0, words => .ok (false, words)
  | steps + 1, words => do
    let (first, rest) ← conjunctions d steps words
    match rest with
    | ['-', 'o'] :: more => do
      let (second, last) ← alternatives d steps more
      .ok (first || second, last)
    | _ => .ok (first, rest)

def conjunctions (d : Directory) : Nat → List (List Char) → Read (Bool × List (List Char))
  | 0, words => .ok (false, words)
  | steps + 1, words => do
    let (first, rest) ← negations d steps words
    match rest with
    | ['-', 'a'] :: more => do
      let (second, last) ← conjunctions d steps more
      .ok (first && second, last)
    | _ => .ok (first, rest)

def negations (d : Directory) : Nat → List (List Char) → Read (Bool × List (List Char))
  | 0, words => .ok (false, words)
  | steps + 1, words => do
    match words with
    | ['!'] :: rest =>
      if rest.isEmpty then primary d steps words
      else
        let (inner, last) ← negations d steps rest
        .ok (!inner, last)
    | _ => primary d steps words

def primary (d : Directory) : Nat → List (List Char) → Read (Bool × List (List Char))
  | 0, words => .ok (false, words)
  | steps + 1, words => do
    match words with
    | [] => .ok (false, [])
    | first :: operator :: second :: rest =>
      if first == ['('] then
        let (inner, last) ← alternatives d steps (operator :: second :: rest)
        match last with
        | [')'] :: after => .ok (inner, after)
        | _ => .error .closingExpected
      else if isBinary operator then return (← binary operator first second, rest)
      else if isUnary first then .ok (unary d first operator, second :: rest)
      else .ok (!first.isEmpty, operator :: second :: rest)
    | [first, operand] =>
      if isBinary operand then .error (.argumentExpected operand)
      else if isUnary first then .ok (unary d first operand, [])
      else .ok (!first.isEmpty, [operand])
    | [word] => .ok (!word.isEmpty, [])

end

/-- The condition that all of some words write; a word left over is laid to the one before it. -/
def whole (d : Directory) (words : List (List Char)) : Read Bool := do
  match ← alternatives d (5 * (words.length + 1)) words with
  | (holds, []) => .ok holds
  | (_, rest) => .error (.unexpectedOperator (words.getD (words.length - rest.length - 1) []))

def evaluate (d : Directory) : List (List Char) → Read Bool
  | [] => .ok false
  | first :: rest =>
    match rest with
    | [operator, second] =>
      if isBinary operator then binary operator first second
      else if first == ['('] && second == [')'] then .ok (!operator.isEmpty)
      else if first == ['!'] then (!·) <$> evaluate d rest
      else whole d (first :: rest)
    | [_, _, last] =>
      if first == ['('] && last == [')'] then whole d rest.dropLast
      else if first == ['!'] then (!·) <$> evaluate d rest
      else whole d (first :: rest)
    | _ => whole d (first :: rest)

def evaluateBracketed (d : Directory) (words : List (List Char)) : Read Bool :=
  if words.getLast? == some [']'] then evaluate d words.dropLast else .error .missingBracket

end FlagSurvey.Shell.Condition

import FlagSurvey.Number.Digits

/-! Version numbers of three parts. The version of a compiler is the first place in what it prints where
a run of digits begins and three runs joined by points stand, each below two to the thirty-second. -/
namespace FlagSurvey

open Number

structure Version where
  major : Nat
  minor : Nat
  patch : Nat
  deriving DecidableEq, Repr

namespace Version

def text (v : Version) : String :=
  String.ofList (decimal v.major ++ '.' :: decimal v.minor ++ '.' :: decimal v.patch)

def takePart? (text : List Char) : Option (Nat × List Char) :=
  match readNat? 10 (text.takeWhile isDigit) with
  | some n => if n < Nat.pow 2 32 then some (n, text.dropWhile isDigit) else none
  | none => none

def takePoint? : List Char → Option (List Char)
  | '.' :: rest => some rest
  | _ => none

def readAt? (text : List Char) : Option Version := do
  let (major, rest) ← takePart? text
  let rest ← takePoint? rest
  let (minor, rest) ← takePart? rest
  let rest ← takePoint? rest
  let (patch, _) ← takePart? rest
  pure ⟨major, minor, patch⟩

/-- Scans on, where `inRun` says that the character before is a digit. -/
def scanFrom (inRun : Bool) : List Char → Option Version
  | [] => none
  | c :: rest =>
    if isDigit c && !inRun then
      match readAt? (c :: rest) with
      | some v => some v
      | none => scanFrom true rest
    else scanFrom (isDigit c) rest

def scan (text : String) : Option Version := scanFrom false text.toList

def precedes (a b : Version) : Bool :=
  a.major < b.major || (a.major == b.major &&
    (a.minor < b.minor || (a.minor == b.minor && a.patch ≤ b.patch)))

def arrange (versions : List Version) : List Version := versions.mergeSort precedes

end Version
end FlagSurvey

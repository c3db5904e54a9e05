import FlagSurvey.Machine.Directory
import FlagSurvey.Shell.Pattern
import FlagSurvey.Shell.Syntax
import FlagSurvey.Text.Order

/-! Fields: what words become after their expansion. The value of an expansion outside quotes is cut where
separators stand, and a field with an active pattern becomes the paths that it takes, if there are any. -/
namespace FlagSurvey.Shell

inductive Item where
  | glyph (glyph : Glyph)
  | loose (char : Char)
  /-- Quotes, which make a field even around nothing. -/
  | quotes
  | boundary
  deriving DecidableEq, Repr

abbrev Field := List Glyph

def Field.text (field : Field) : List Char := field.map (·.char)

namespace Item

def ofQuoted (text : List Char) : List Item := .quotes :: text.map fun c => .glyph (.quote c)

def glyph? : Item → Option Glyph
  | .glyph g => some g
  | .loose c => some ⟨c, false⟩
  | .quotes => none
  | .boundary => some ⟨' ', true⟩

def whole (items : List Item) : Field := items.filterMap glyph?

def isBlank (c : Char) : Bool := c == ' ' || c == '\t' || c == '\n'

inductive Progress where
  | between
  | ended
  | within (reversed : Field)

/-- Cuts items into fields, where some characters separate. Blanks among the separators count once and
not at the ends; any other separator ends a field, even an empty one. -/
def cut (separators : List Char) : Progress → List Item → List Field
  | .within field, [] => [field.reverse]
  | _, [] => []
  | progress, item :: rest =>
    let add (g : Glyph) : List Field :=
      match progress with
      | .within field => cut separators (.within (g :: field)) rest
      | _ => cut separators (.within [g]) rest
    match item with
    | .glyph g => add g
    | .quotes =>
      match progress with
      | .within field => cut separators (.within field) rest
      | _ => cut separators (.within []) rest
    | .boundary =>
      match progress with
      | .within field => field.reverse :: cut separators .between rest
      | _ => cut separators .between rest
    | .loose c =>
      if !separators.contains c then add ⟨c, false⟩
      else if isBlank c then
        match progress with
        | .within field => field.reverse :: cut separators .ended rest
        | progress => cut separators progress rest
      else
        match progress with
        | .within field => field.reverse :: cut separators .between rest
        | .ended => cut separators .between rest
        | .between => [] :: cut separators .between rest

end Item

def cutLine (separators : List Char) : Nat → List (Char × Bool) → List (List Char)
  | 0, _ => []
  | count, line =>
    let isBlank (c : Char × Bool) : Bool := !c.2 && Item.isBlank c.1 && separators.contains c.1
    let isSeparator (c : Char × Bool) : Bool := !c.2 && separators.contains c.1
    let line := line.dropWhile isBlank
    match count with
    | 0 => []
    | 1 => [((line.reverse.dropWhile isBlank).reverse).map (·.1)]
    | count + 1 =>
      let first := line.takeWhile fun c => !isSeparator c
      let rest := (line.drop first.length).dropWhile isBlank
      let rest := match rest with
        | c :: more => if isSeparator c then more else rest
        | [] => []
      first.map (·.1) :: cutLine separators count rest

/-! Paths that a pattern takes. -/

def Field.steps (field : Field) : List Field :=
  field.splitOnP fun g => g.char == '/'

def entryNames (directory : Directory) (path : List Char) : List (List Char) :=
  match directory.node (if path.isEmpty then "." else textOf path) with
  | .ok (.folder entries) =>
    ((".", ()) :: ("..", ()) :: entries.map fun e => (e.1, ())).map (octetsOf ·.1)
  | _ => []

def pathsFrom (directory : Directory) (start : List Char) : List Field → List (List Char)
  | [] => [start]
  | step :: rest =>
    let goOn (name : List Char) : List (List Char) :=
      match rest with
      | [] => [start ++ name]
      | _ => pathsFrom directory (start ++ name ++ ['/']) rest
    if !step.any Glyph.isActive then goOn step.text
    else
      let hidden := step.head?.any fun g => g.char == '.'
      let names := (entryNames directory start).filter fun name =>
        Pattern.takes step name && (hidden || name.head? != some '.')
      names.flatMap goOn

def isPresent (directory : Directory) (path : List Char) : Bool :=
  (directory.node (textOf path)).isOk

def Field.paths (field : Field) (directory : Directory) : List (List Char) :=
  if !field.any Glyph.isActive then [field.text]
  else
    match (pathsFrom directory [] field.steps).filter (isPresent directory) with
    | [] => [field.text]
    | found => found.mergeSort Text.precedes

end FlagSurvey.Shell

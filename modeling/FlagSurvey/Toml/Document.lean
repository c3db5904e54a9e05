import FlagSurvey.Toml.Value

/-! Documents: lines that assign a value to a key, each to the table of the last header above it. No key
is given twice, and no table is taken up again that is already written. -/
namespace FlagSurvey.Toml

inductive Line where
  | blank
  | table (path : List String)
  | tables (path : List String)
  | assignment (path : List String) (value : Value)
  deriving Repr

def line : Reader Line := fun text =>
  match text with
  | '[' :: '[' :: rest =>
    match keyPath rest with
    | some (path, ']' :: ']' :: after) => (lineEnd.map fun _ => .tables path) after
    | _ => none
  | '[' :: rest =>
    match keyPath rest with
    | some (path, ']' :: after) => (lineEnd.map fun _ => .table path) after
    | _ => none
  | _ =>
    match lineEnd text with
    | some ((), rest) => some (.blank, rest)
    | none =>
      match pair (value nestingLimit) text with
      | some ((path, value), rest) => (lineEnd.map fun _ => .assignment path value) rest
      | none => none

def linesOf (text : List Char) : Option (List Line) :=
  match text.dropWhile isGap with
  | [] => some []
  | start =>
    match line start with
    | none => none
    | some (first, rest) =>
      if rest.length < text.length then (linesOf rest).map (first :: ·) else none
termination_by text.length

structure Section where
  inArray : Bool
  path : List String
  below : List (List String × Value)
  deriving Repr

def sectionsOf : List Line → List (List String × Value) × List Section
  | [] => ([], [])
  | first :: rest =>
    let (above, sections) := sectionsOf rest
    match first with
    | .blank => (above, sections)
    | .assignment path value => ((path, value) :: above, sections)
    | .table path => ([], ⟨false, path, above⟩ :: sections)
    | .tables path => ([], ⟨true, path, above⟩ :: sections)

def addSections : List Section → Entries → Option Entries
  | [], entries => some entries
  | s :: rest, entries =>
    let added := if s.inArray then Entries.addToTables s.path s.below entries
      else Entries.addTable s.path s.below entries
    added.bind (addSections rest)

/-- The table that a document writes; a byte order mark at its start is passed over. -/
def read? (text : String) : Option Entries := do
  let chars := match text.toList with
    | '\ufeff' :: rest => rest
    | all => all
  let (above, sections) := sectionsOf (← linesOf chars)
  addSections sections (← Entries.assignAll above [])

end FlagSurvey.Toml

import FlagSurvey.Toml.Scalar

/-! Values and tables. A table remembers how it came about, since that decides what may still be put
into it: dotted keys make tables that dotted keys go on with, and a header makes the tables on its way,
each of which one later header may take up as its own. -/
namespace FlagSurvey.Toml

inductive Origin where
  | braces
  | header
  /-- On the way of a header. -/
  | passed
  /-- On the way of a dotted key. -/
  | dotted
  deriving DecidableEq, Repr

inductive Value where
  | scalar (value : Scalar)
  | array (items : List Value)
  | table (origin : Origin) (entries : List (String × Value))
  | tables (items : List (List (String × Value)))
  deriving Repr

abbrev Entries := List (String × Value)

namespace Entries

def put (key : String) (value : Value) : Entries → Entries
  | [] => [(key, value)]
  | (k, v) :: rest => if k == key then (k, value) :: rest else (k, v) :: put key value rest

def changeLast (change : Entries → Option Entries) : List Entries → Option (List Entries)
  | [] => none
  | [last] => (change last).map fun entries => [entries]
  | first :: rest => (changeLast change rest).map (first :: ·)

/-- Assigns a value to a dotted key in a table that is open to it or not. Only the tables that dotted keys
made are, besides the one that the assignment stands in. -/
def assign (value : Value) (isOpen : Bool) : List String → Entries → Option Entries
  | [], _ => none
  | [key], entries =>
    if isOpen && (entries.lookup key).isNone then some (entries ++ [(key, value)]) else none
  | key :: rest, entries =>
    match entries.lookup key with
    | none => (assign value true rest []).map fun made => entries ++ [(key, .table .dotted made)]
    | some (.table .dotted inner) =>
      (assign value true rest inner).map fun changed => entries.put key (.table .dotted changed)
    | some (.table .passed inner) =>
      (assign value false rest inner).map fun changed => entries.put key (.table .passed changed)
    | some (.tables items) =>
      (changeLast (assign value false rest) items).map fun changed => entries.put key (.tables changed)
    | some _ => none

def assignAll : List (List String × Value) → Entries → Option Entries
  | [], entries => some entries
  | (path, value) :: rest, entries => (assign value true path entries).bind (assignAll rest)

def atHeader (change : Option Value → Option Value) : List String → Entries → Option Entries
  | [], _ => none
  | [key], entries => (change (entries.lookup key)).map fun changed => entries.put key changed
  | key :: rest, entries =>
    match entries.lookup key with
    | none => (atHeader change rest []).map fun made => entries ++ [(key, .table .passed made)]
    | some (.table .braces _) => none
    | some (.table origin inner) =>
      (atHeader change rest inner).map fun changed => entries.put key (.table origin changed)
    | some (.tables items) =>
      (changeLast (atHeader change rest) items).map fun changed => entries.put key (.tables changed)
    | some _ => none

def addTable (path : List String) (below : List (List String × Value)) (entries : Entries) :
    Option Entries :=
  atHeader (fun
    | none => (assignAll below []).map (.table .header)
    | some (.table .passed inner) => (assignAll below inner).map (.table .header)
    | some _ => none) path entries

def addToTables (path : List String) (below : List (List String × Value)) (entries : Entries) :
    Option Entries :=
  atHeader (fun
    | none => (assignAll below []).map fun made => .tables [made]
    | some (.tables items) => (assignAll below []).map fun made => .tables (items ++ [made])
    | some _ => none) path entries

end Entries

/-! Keys and values as they are written. -/

def isBare (c : Char) : Bool := Number.isAlphanumeric c || c == '_' || c == '-'

def simpleKey : Reader (List Char)
  | '"' :: rest => basicOn [] rest
  | '\x27' :: rest => literal rest
  | text => Reader.run1 isBare text

def nestingLimit : Nat := 79

def keyPath : Reader (List String) := fun text =>
  let part : Reader String := fun text =>
    match simpleKey (text.dropWhile isGap) with
    | some (key, rest) => some (String.ofList key, rest.dropWhile isGap)
    | none => none
  match Reader.separated part (Reader.exactly ['.']) text with
  | some (path, rest) => if path.length ≤ nestingLimit then some (path, rest) else none
  | none => none

def itemsOn (item : Reader Value) (text : List Char) : Option (List Value × List Char) :=
  match layout false text with
  | some ((), ']' :: rest) => some ([], rest)
  | some ((), start) =>
    match item start with
    | none => none
    | some (value, rest) =>
      match layout false rest with
      | some ((), ']' :: after) => some ([value], after)
      | some ((), ',' :: after) =>
        if after.length < text.length then
          (itemsOn item after).map fun (more, last) => (value :: more, last)
        else none
      | _ => none
  | none => none
termination_by text.length

def pair (item : Reader Value) : Reader (List String × Value) := fun text =>
  match keyPath text with
  | some (path, '=' :: rest) =>
    match item (rest.dropWhile isGap) with
    | some (value, after) => some ((path, value), after.dropWhile isGap)
    | none => none
  | _ => none

def pairsOn (item : Reader Value) (text : List Char) :
    Option (List (List String × Value) × List Char) :=
  match text.dropWhile isGap with
  | '}' :: rest => some ([], rest)
  | start =>
    match Reader.separated (pair item) (Reader.exactly [',']) start with
    | some (pairs, '}' :: rest) => some (pairs, rest)
    | _ => none

def value : Nat → Reader Value
  | 0 => fun text => (scalar.map .scalar) text
  | room + 1 => fun text =>
    match text with
    | '[' :: rest => (itemsOn (value room) rest).map fun (items, after) => (.array items, after)
    | '{' :: rest =>
      match pairsOn (value room) rest with
      | some (pairs, after) =>
        (Entries.assignAll pairs []).map fun entries => (.table .braces entries, after)
      | none => none
    | _ => (scalar.map .scalar) text

end FlagSurvey.Toml

import FlagSurvey.Text.Utf8

/-! Directories in memory: a tree of files and folders, and the folder that paths start from. A path is
followed name by name; a point stays, two points go back, and every name but the last has to be that of
a folder. -/
namespace FlagSurvey

open Text

inductive Node where
  | file (content : List UInt8) (executable : Bool)
  | folder (entries : List (String × Node))
  | tool (name : String)
  | sink

inductive PathFault where
  | missing
  | denied
  | exists
  | notFolder
  | isFolder
  | nameTooLong
  | badName
  | notText
  deriving DecidableEq, Repr

namespace PathFault

def description : PathFault → String
  | .missing => "No such file or directory"
  | .denied => "Permission denied"
  | .exists => "File exists"
  | .notFolder => "Not a directory"
  | .isFolder => "Is a directory"
  | .nameTooLong => "File name too long"
  | .badName => "file name contained an unexpected NUL byte"
  | .notText => "stream did not contain valid UTF-8"

def number? : PathFault → Option Nat
  | .missing => some 2
  | .denied => some 13
  | .exists => some 17
  | .notFolder => some 20
  | .isFolder => some 21
  | .nameTooLong => some 36
  | .badName => none
  | .notText => none

def message (fault : PathFault) : String :=
  match fault.number? with
  | some n => fault.description ++ " (os error " ++ toString n ++ ")"
  | none => fault.description

end PathFault

namespace Node

def isFolder : Node → Bool
  | .folder _ => true
  | _ => false

def get : List String → Node → Except PathFault Node
  | [], node => .ok node
  | name :: rest, .folder entries =>
    match entries.lookup name with
    | some node => get rest node
    | none => .error .missing
  | _ :: _, _ => .error .notFolder

def putEntry (name : String) (node : Node) : List (String × Node) → List (String × Node)
  | [] => [(name, node)]
  | (n, old) :: rest => if n == name then (n, node) :: rest else (n, old) :: putEntry name node rest

/-- Puts a node at the end of some names, all but the last of which are there. -/
def put (tree : Node) (names : List String) (node : Node) : Node :=
  match names, tree with
  | [], _ => node
  | [name], .folder entries => .folder (putEntry name node entries)
  | name :: rest, .folder entries =>
    match entries.lookup name with
    | some inner => .folder (putEntry name (put inner rest node) entries)
    | none => .folder entries
  | _ :: _, other => other

def remove : List String → Node → Node
  | [], node => node
  | [name], .folder entries => .folder (entries.filter fun entry => entry.1 != name)
  | name :: rest, .folder entries =>
    match entries.lookup name with
    | some inner => .folder (putEntry name (remove rest inner) entries)
    | none => .folder entries
  | _ :: _, other => other

end Node

structure Directory where
  root : Node
  here : List String

namespace Directory

def longestName : Nat := 255

/-- The names of a path, and whether it starts from the root; a slash at the end stands for the folder
itself. -/
def namesOf (path : String) : Bool × List String :=
  let parts := path.toList.splitOn '/'
  let names := parts.filterMap fun part => if part.isEmpty then none else some (String.ofList part)
  let closing := if path.toList.getLast? == some '/' then ["."] else []
  (path.toList.head? == some '/', names ++ closing)

def follow (d : Directory) (names : List String) (name : String) : Except PathFault (List String) :=
  match d.root.get names with
  | .error fault => .error fault
  | .ok node =>
    if !node.isFolder then .error .notFolder
    else if longestName < name.utf8ByteSize then .error .nameTooLong
    else if name == "." then .ok names
    else if name == ".." then .ok names.dropLast
    else .ok (names ++ [name])

def locate (d : Directory) (path : String) : Except PathFault (List String) :=
  if path.isEmpty then .error .missing
  else if path.toList.contains '\x00' then .error .badName
  else
    let (fromRoot, names) := namesOf path
    names.foldlM d.follow (if fromRoot then [] else d.here)

def node (d : Directory) (path : String) : Except PathFault Node :=
  (d.locate path).bind fun names => d.root.get names

def isFolder (d : Directory) (path : String) : Bool :=
  match d.node path with
  | .ok node => node.isFolder
  | .error _ => false

def read (d : Directory) (path : String) : Except PathFault (List UInt8) :=
  match d.node path with
  | .ok (.file content _) => .ok content
  | .ok (.folder _) => .error .isFolder
  | .ok _ => .ok []
  | .error fault => .error fault

def readText (d : Directory) (path : String) : Except PathFault String :=
  match d.read path with
  | .ok content =>
    match decode? content with
    | some text => .ok text
    | none => .error .notText
  | .error fault => .error fault

def namesNewFolder (d : Directory) (path : String) : Bool :=
  match path.toList.reverse.dropWhile (· == '/') with
  | [] => false
  | kept =>
    path.toList.getLast? == some '/' &&
      match d.node (String.ofList kept.reverse) with
      | .error .missing => (d.locate (String.ofList kept.reverse)).isOk
      | _ => false

/-- Writes a file in place of the one that is there, which keeps its permission to be run. -/
def write (d : Directory) (path : String) (content : List UInt8) : Except PathFault Directory :=
  match d.locate path with
  | .error fault => .error (if d.namesNewFolder path then .isFolder else fault)
  | .ok names =>
    match d.root.get names with
    | .ok (.folder _) => .error .isFolder
    | .ok (.file _ executable) => .ok { d with root := d.root.put names (.file content executable) }
    | .ok _ => .ok d
    | .error .missing => .ok { d with root := d.root.put names (.file content false) }
    | .error fault => .error fault

def makeFolder (d : Directory) (path : String) : Except PathFault Directory :=
  match d.locate path with
  | .error fault => .error fault
  | .ok names =>
    match d.root.get names with
    | .ok _ => .error .exists
    | .error .missing => .ok { d with root := d.root.put names (.folder []) }
    | .error fault => .error fault

def parent? (path : String) : Option String :=
  let (fromRoot, names) := namesOf path
  let kept := match names with
    | first :: rest => first :: rest.filter (· != ".")
    | [] => []
  match kept.dropLast with
  | [] => if fromRoot then if kept.isEmpty then none else some "/" else some ""
  | before => some ((if fromRoot then "/" else "") ++ "/".intercalate before)

def makeFolders (d : Directory) (path : String) : Except PathFault Directory :=
  make path.length path
where
  make (steps : Nat) (path : String) : Except PathFault Directory :=
    if path.isEmpty then .ok d
    else
      match d.makeFolder path with
      | .ok made => .ok made
      | .error .missing =>
        match steps, parent? path with
        | steps + 1, some before =>
          match make steps before with
          | .error fault => .error fault
          | .ok grown =>
            match grown.makeFolder path with
            | .ok made => .ok made
            | .error fault => if grown.isFolder path then .ok grown else .error fault
        | _, _ => .error .missing
      | .error fault => if d.isFolder path then .ok d else .error fault

def writeWithFolders (d : Directory) (path : String) (content : List UInt8) :
    Except PathFault Directory := do
  let grown ← match parent? path with
    | some before => d.makeFolders before
    | none => pure d
  grown.write path content

def place (d : Directory) (path : String) (content : List UInt8) (executable : Bool) : Directory :=
  match d.writeWithFolders path content with
  | .ok written =>
    match written.locate path with
    | .ok names => { written with root := written.root.put names (.file content executable) }
    | .error _ => written
  | .error _ => d

end Directory
end FlagSurvey

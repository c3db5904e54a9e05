import FlagSurvey.Machine.Directory

/-! Programs: what a name leads to, and what starts when a file is run. A file that begins with a number
sign and an exclamation mark names its interpreter; any other text is a script of the shell. -/
namespace FlagSurvey

namespace Directory

/-- The tool that is started for a program, and the words that come before the arguments; where the
program is a script, also the name that the tool goes by. -/
structure Launch where
  tool : String
  name : Option String
  words : List String
  deriving DecidableEq, Repr

def interpreterOf (content : List UInt8) : Option (String × List String) :=
  match content with
  | 0x23 :: 0x21 :: rest =>
    let line := (Text.decodeLenient ((rest.takeWhile (· != 0x0a)).take 253)).toList
    let isGap (c : Char) : Bool := c == ' ' || c == '\t'
    let start := line.dropWhile isGap
    let path := start.takeWhile fun c => !isGap c
    let word := (((start.drop path.length).dropWhile isGap).reverse.dropWhile isGap).reverse
    if path.isEmpty then none
    else some (String.ofList path, if word.isEmpty then [] else [String.ofList word])
  | _ => none

def shellTool : String := "sh"

def shellPath : String := "/bin/sh"

def launchThrough (d : Directory) : Nat → String → Except PathFault Launch
  | 0, _ => .error .missing
  | steps + 1, path =>
    match d.node path with
    | .error fault => .error fault
    | .ok (.tool name) => .ok ⟨name, none, []⟩
    | .ok (.file content true) =>
      match interpreterOf content with
      | some (interpreter, words) =>
        (launchThrough d steps interpreter).map fun launch =>
          { launch with
            name := launch.name <|> some interpreter
            words := launch.words ++ words ++ [path] }
      | none => .ok ⟨shellTool, some shellPath, [path]⟩
    | .ok _ => .error .denied

def launch (d : Directory) (path : String) : Except PathFault Launch := d.launchThrough 5 path

def launchNamed (d : Directory) (folders : List String) (name : String) : Except PathFault Launch :=
  if name.isEmpty then .error .missing
  else if name.toList.contains '/' then d.launch name
  else if longestName < name.utf8ByteSize then .error .nameTooLong
  else search .missing folders
where
  search (fault : PathFault) : List String → Except PathFault Launch
    | [] => .error fault
    | folder :: rest =>
      match d.launch (if folder.isEmpty then name else folder ++ "/" ++ name) with
      | .ok launch => .ok launch
      | .error .denied => search .denied rest
      | .error _ => search fault rest

end Directory
end FlagSurvey

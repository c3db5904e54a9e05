import FlagSurvey.Survey.Report
import FlagSurvey.Yaml.Scalar

/-! Reports as the tuner reads them: one mapping `compiler` with the compiler's name, its version and the
list of what may be set. -/
namespace FlagSurvey

open Number Yaml

namespace Report

def textField (indent : Nat) (key text : String) : List Char :=
  key.toList ++ ':' :: ' ' :: scalarLine (indent + 2) text.toList

def numberField (key : String) (value : Int) : List Char :=
  key.toList ++ ':' :: ' ' :: decimalInt value ++ ['\n']

def item : List (List Char) → List Char
  | [] => []
  | first :: rest =>
    ' ' :: ' ' :: '-' :: ' ' :: first ++ rest.flatMap fun field => spaces 4 ++ field

def fieldsOf : Tunable → List (List Char)
  | .onOff name onLead offLead =>
    [textField 4 "type" "on-off", textField 4 "name" name, textField 4 "on-prefix" onLead,
      textField 4 "off-prefix" offLead]
  | .range name lead separator min max =>
    [textField 4 "type" "range", textField 4 "name" name, textField 4 "prefix" lead,
      textField 4 "separator" separator, numberField "min" min, numberField "max" max]

def versionText (r : Report) : String :=
  match r.version with
  | some v => v.text
  | none => "unknown"

def yaml (r : Report) : String :=
  String.ofList ("compiler:\n".toList ++
    spaces 2 ++ textField 2 "name" r.compilerName ++
    spaces 2 ++ textField 2 "version" r.versionText ++
    spaces 2 ++ (match r.tunables with
      | [] => "flags: []\n".toList
      | tunables => "flags:\n".toList ++ tunables.flatMap fun t => item (fieldsOf t)))

end Report
end FlagSurvey

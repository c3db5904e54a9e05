/-! The order of texts: by the first characters that differ, and a beginning before what goes on. -/
namespace FlagSurvey.Text

def precedes : List Char → List Char → Bool
  | [], _ => true
  | _ :: _, [] => false
  | c :: rest, d :: other => c < d || (c == d && precedes rest other)

end FlagSurvey.Text

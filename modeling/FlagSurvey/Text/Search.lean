/-! Texts within texts. -/
namespace FlagSurvey.Text

def contains (needle : List Char) : List Char → Bool
  | [] => needle.isEmpty
  | c :: rest => needle.isPrefixOf (c :: rest) || contains needle rest

def mentions (text needle : String) : Bool := contains needle.toList text.toList

end FlagSurvey.Text

/-! Lines of a text. A line ends before a line feed, or before a carriage return and a line feed; the
end of the text ends a line that has characters. -/
namespace FlagSurvey.Text

def lines : List Char → List (List Char)
  | [] => []
  | '\n' :: rest => [] :: lines rest
  | '\r' :: '\n' :: rest => [] :: lines rest
  | c :: rest =>
    match lines rest with
    | [] => [[c]]
    | line :: more => (c :: line) :: more

end FlagSurvey.Text

import FlagSurvey.Number.Digits
import FlagSurvey.Toml.Reader

/-! Texts in quotes. Double quotes allow escapes and single ones do not; three quotes allow line ends, the
first of which is dropped when it stands at once. No control character but the tab stands in a text. -/
namespace FlagSurvey.Toml

open Number

def scalar? (digits : List Char) : Option Char :=
  match readNat? 16 digits with
  | some n => if h : n.isValidChar then some (Char.ofNatAux n h) else none
  | none => none

def escaped? : Char → Option Char
  | 'b' => some '\x08'
  | 't' => some '\t'
  | 'n' => some '\n'
  | 'f' => some '\x0c'
  | 'r' => some '\r'
  | '"' => some '"'
  | '\\' => some '\\'
  | _ => none

def point (count : Nat) : Reader Char := fun text =>
  if (text.take count).length = count then
    (scalar? (text.take count)).map fun c => (c, text.drop count)
  else none

def escape : Reader Char
  | [] => none
  | c :: rest =>
    match escaped? c with
    | some d => some (d, rest)
    | none => if c == 'u' then point 4 rest else if c == 'U' then point 8 rest else none

theorem length_le_of_point {count : Nat} {text rest : List Char} {c : Char}
    (h : point count text = some (c, rest)) : rest.length ≤ text.length := by
  simp only [point, Option.ite_none_right_eq_some, Option.map_eq_some_iff, Prod.mk.injEq] at h
  obtain ⟨_, _, _, _, rfl⟩ := h
  simp

theorem length_lt_of_escape {text rest : List Char} {c : Char} (h : escape text = some (c, rest)) :
    rest.length < text.length := by
  cases text with
  | nil => simp [escape] at h
  | cons d more =>
    rw [List.length_cons, Nat.lt_succ_iff]
    rw [escape] at h
    split at h
    · simp_all
    · split at h
      · exact length_le_of_point h
      · split at h
        · exact length_le_of_point h
        · contradiction

/-- A text up to its closing double quote, with the characters before it in reverse. -/
def basicOn (done : List Char) (text : List Char) : Option (List Char × List Char) :=
  match text with
  | [] => none
  | c :: rest =>
    if c == '"' then some (done.reverse, rest)
    else if c == '\\' then
      match _ : escape rest with
      | some (d, after) => basicOn (d :: done) after
      | none => none
    else if isShown c then basicOn (c :: done) rest
    else none
termination_by text.length
decreasing_by
  · have := length_lt_of_escape ‹escape rest = _›
    simp only [List.length_cons]
    omega
  · simp

def literal : Reader (List Char) := fun text =>
  match text.dropWhile fun c => isShown c && c != '\x27' with
  | '\x27' :: rest => some (text.takeWhile fun c => isShown c && c != '\x27', rest)
  | _ => none

/-- Reads a run of at most five quotes that holds the three that close a text; those before them belong
to it. -/
def closing? (quote : Char) (text : List Char) : Option (List Char × List Char) :=
  let count := (text.takeWhile (· == quote)).length
  if count < 3 then none
  else
    let inside := min (count - 3) 2
    some (List.replicate inside quote, text.drop (inside + 3))

def pastBreaks : List Char → List Char
  | [] => []
  | '\n' :: rest => pastBreaks rest
  | '\r' :: '\n' :: rest => pastBreaks rest
  | c :: rest => if isGap c then pastBreaks rest else c :: rest

def continued? (text : List Char) : Option (List Char) :=
  (newline (text.dropWhile isGap)).map fun ((), rest) => pastBreaks rest

theorem length_pastBreaks_le (text : List Char) : (pastBreaks text).length ≤ text.length := by
  fun_induction pastBreaks text <;> simp_all <;> omega

theorem length_le_of_continued? {text rest : List Char} (h : continued? text = some rest) :
    rest.length ≤ text.length := by
  simp only [continued?, Option.map_eq_some_iff] at h
  obtain ⟨⟨⟨⟩, after⟩, ended, rfl⟩ := h
  have gaps := (List.dropWhile_sublist isGap (l := text)).length_le
  have shorter := length_pastBreaks_le after
  unfold newline at ended
  split at ended <;> simp_all <;> omega

def multilineOn (quote : Char) (escapes : Bool) (done : List Char) (text : List Char) :
    Option (List Char × List Char) :=
  match text with
  | [] => none
  | '\r' :: '\n' :: rest => multilineOn quote escapes ('\n' :: done) rest
  | c :: rest =>
    if c == quote then
      match closing? quote (c :: rest) with
      | some (last, after) => some (done.reverse ++ last, after)
      | none => multilineOn quote escapes (c :: done) rest
    else if c == '\\' && escapes then
      match _ : continued? rest with
      | some after => multilineOn quote escapes done after
      | none =>
        match _ : escape rest with
        | some (d, after) => multilineOn quote escapes (d :: done) after
        | none => none
    else if c == '\n' || isShown c then multilineOn quote escapes (c :: done) rest
    else none
termination_by text.length
decreasing_by
  all_goals simp only [List.length_cons]
  · omega
  · omega
  · have := length_le_of_continued? ‹continued? rest = _›
    omega
  · have := length_lt_of_escape ‹escape rest = _›
    omega
  · omega

def afterFirstNewline (text : List Char) : List Char :=
  match newline text with
  | some ((), rest) => rest
  | none => text

def quotedText : Reader (List Char)
  | '"' :: '"' :: '"' :: rest => multilineOn '"' true [] (afterFirstNewline rest)
  | '\x27' :: '\x27' :: '\x27' :: rest => multilineOn '\x27' false [] (afterFirstNewline rest)
  | '"' :: rest => basicOn [] rest
  | '\x27' :: rest => literal rest
  | _ => none

end FlagSurvey.Toml

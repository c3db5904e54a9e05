import FlagSurvey.Number.Digits
import FlagSurvey.Shell.Syntax

/-! Reading scripts. A script is read one line of commands at a time, so that what stands before an error
is carried out. Every reader takes a number of steps that bounds it, which the length of the text gives. -/
namespace FlagSurvey.Shell.Reader

open Number

abbrev Read := Except SyntaxFault

def isGap (c : Char) : Bool := c == ' ' || c == '\t'

def isMeta (c : Char) : Bool := isGap c || ['\n', ';', '&', '|', '<', '>', '(', ')'].contains c

def isNameStart (c : Char) : Bool := isLetter c || c == '_'

def isNamePart (c : Char) : Bool := isAlphanumeric c || c == '_'

def isName : List Char → Bool
  | [] => false
  | c :: rest => isNameStart c && rest.all isNamePart

def isSpecial (c : Char) : Bool := ['@', '*', '#', '?', '-', '$', '!'].contains c

def pastGap : List Char → List Char
  | [] => []
  | '\\' :: '\n' :: rest => pastGap rest
  | c :: rest =>
    if isGap c then pastGap rest
    else if c == '#' then rest.dropWhile (· != '\n')
    else c :: rest

def pastLines (steps : Nat) (text : List Char) : List Char :=
  match steps, pastGap text with
  | steps + 1, '\n' :: rest => pastLines steps rest
  | _, rest => rest

def bareWord (text : List Char) : List Char := text.takeWhile fun c => !isMeta c

def reserved : List (List Char) :=
  ["!", "\x7b", "\x7d", "case", "do", "done", "elif", "else", "esac", "fi", "for", "if", "in", "then",
    "until", "while"].map String.toList

def closers : List (List Char) :=
  ["\x7d", "do", "done", "elif", "else", "esac", "fi", "then"].map String.toList

def isActive (c : Char) : Bool := ['\x27', '"', '\\', '$', '\x60', '='].contains c

def isPlainWord (word : List Char) : Bool :=
  !word.isEmpty && word.all fun c => !isActive c

def quoteToken (chars : List Char) : String := "\"" ++ String.ofList chars ++ "\""

def tokenAt (text : List Char) : String :=
  match pastGap text with
  | [] => "end of file"
  | '\n' :: _ => "newline"
  | ';' :: ';' :: _ => "\";;\""
  | '&' :: '&' :: _ => "\"&&\""
  | '|' :: '|' :: _ => "\"||\""
  | '<' :: _ => "redirection"
  | '>' :: _ => "redirection"
  | c :: rest =>
    if isMeta c then quoteToken [c]
    else if reserved.contains (bareWord (c :: rest)) then quoteToken (bareWord (c :: rest))
    else "word"

def unexpectedAt {α : Type} (text : List Char) (expected : Option String) : Read α :=
  .error (.unexpected (tokenAt text) expected (text.count '\n'))

/-- Where a run of parts ends. -/
inductive Bounds where
  | bare
  | double
  | brace (quoted : Bool)
  | number (depth : Nat)
  | document
  deriving DecidableEq

def Bounds.quoted : Bounds → Bool
  | .bare => false
  | .brace quoted => quoted
  | _ => true

def Bounds.isPlain (bounds : Bounds) (c : Char) : Bool :=
  c != '\\' && c != '$' && c != '\x60' &&
    match bounds with
    | .bare => !isMeta c && c != '\x27' && c != '"'
    | .double => c != '"'
    | .brace quoted => c != '}' && c != '"' && (quoted || c != '\x27')
    | .number _ => c != '(' && c != ')'
    | .document => true

def Bounds.escapes (bounds : Bounds) (c : Char) : Bool :=
  match bounds with
  | .bare => true
  | .brace false => true
  | .brace true => ['$', '\x60', '"', '\\', '}'].contains c
  | .document => ['$', '\x60', '\\'].contains c
  | _ => ['$', '\x60', '"', '\\'].contains c

def backquoted (inDouble : Bool) (done : List Char) : List Char → Option (List Char × List Char)
  | [] => none
  | '\x60' :: rest => some (done.reverse, rest)
  | '\\' :: c :: rest =>
    if c == '\x60' || c == '$' || c == '\\' || (inDouble && c == '"') then
      backquoted inDouble (c :: done) rest
    else backquoted inDouble (c :: '\\' :: done) rest
  | c :: rest => backquoted inDouble (c :: done) rest

def documentOn (dropTabs : Bool) (delimiter : List Char) :
    Nat → List Char → List Char × List Char
  | 0, text => ([], text)
  | steps + 1, text =>
    if text.isEmpty then ([], [])
    else
      let line := text.takeWhile (· != '\n')
      let rest := (text.dropWhile (· != '\n')).drop 1
      let line := if dropTabs then line.dropWhile (· == '\t') else line
      if line == delimiter then ([], rest)
      else
        let ending := if (text.dropWhile (· != '\n')).isEmpty then [] else ['\n']
        let (more, after) := documentOn dropTabs delimiter steps rest
        (line ++ ending ++ more, after)

def withoutQuotes (word : List Char) : List Char :=
  word.filter fun c => c != '\x27' && c != '"' && c != '\\'

mutual

/-- Parts up to the end that the bounds set. -/
def parts (lines : Nat) : Nat → Bounds → List Char → Read (List Part × List Char)
  | 0, _, _ => .error .unterminatedQuote
  | steps + 1, bounds, text =>
    match text with
    | [] =>
      match bounds with
      | .bare | .document => .ok ([], [])
      | .double => .error .unterminatedQuote
      | .brace _ => .error .unterminatedBrace
      | .number _ => .error .unterminatedNumber
    | c :: rest =>
      let run := text.takeWhile bounds.isPlain
      if !run.isEmpty then do
        let (more, after) ← parts lines steps bounds (text.dropWhile bounds.isPlain)
        .ok (.text run bounds.quoted :: more, after)
      else if c == '\\' then
        match rest with
        | [] => .ok ([.text ['\\'] true], [])
        | '\n' :: after => parts lines steps bounds after
        | d :: after =>
          if bounds.escapes d then do
            let (more, last) ← parts lines steps bounds after
            .ok (.text [d] true :: more, last)
          else do
            let (more, last) ← parts lines steps bounds rest
            .ok (.text ['\\'] true :: more, last)
      else if c == '$' then do
        let (part, after) ← dollar lines steps bounds.quoted rest
        let (more, last) ← parts lines steps bounds after
        .ok (part :: more, last)
      else if c == '\x60' then
        match backquoted bounds.quoted [] rest with
        | none => .error .unterminatedQuote
        | some (body, after) => do
          let (command, _) ← list lines steps body
          let (more, last) ← parts lines steps bounds after
          .ok (.output command bounds.quoted :: more, last)
      else if c == '"' then
        if bounds == .double then .ok ([], rest)
        else do
          let (inner, after) ← parts lines steps .double rest
          let (more, last) ← parts lines steps bounds after
          .ok ((if inner.isEmpty then [.text [] true] else inner) ++ more, last)
      else if c == '\x27' then
        match rest.dropWhile (· != '\x27') with
        | [] => .error .unterminatedQuote
        | _ :: after => do
          let (more, last) ← parts lines steps bounds after
          .ok (.text (rest.takeWhile (· != '\x27')) true :: more, last)
      else
        match bounds with
        | .brace _ => .ok ([], rest)
        | .number 0 =>
          match text with
          | ')' :: ')' :: after => .ok ([], after)
          | '(' :: after => do
            let (more, last) ← parts lines steps (.number 1) after
            .ok (.text ['('] true :: more, last)
          | _ => .error .unterminatedNumber
        | .number (depth + 1) => do
          let inner := if c == '(' then depth + 2 else depth
          let (more, last) ← parts lines steps (.number inner) rest
          .ok (.text [c] true :: more, last)
        | _ => .ok ([], text)

def dollar (lines : Nat) : Nat → Bool → List Char → Read (Part × List Char)
  | 0, _, _ => .error .unterminatedQuote
  | steps + 1, quoted, text =>
    match text with
    | '(' :: '(' :: rest => do
      let (inner, after) ← parts lines steps (.number 0) rest
      .ok (.number inner quoted, after)
    | '(' :: rest => do
      let (body, after) ← list lines steps rest
      match pastGap after with
      | ')' :: last => .ok (.output body quoted, last)
      | other => unexpectedAt other (some "\")\"")
    | '{' :: rest => brace lines steps quoted rest
    | c :: rest =>
      if isNameStart c then
        .ok (.parameter (c :: rest.takeWhile isNamePart) .value [] quoted, rest.dropWhile isNamePart)
      else if isSpecial c || isDigit c then .ok (.parameter [c] .value [] quoted, rest)
      else .ok (.text ['$'] true, text)
    | [] => .ok (.text ['$'] true, [])

def brace (lines : Nat) : Nat → Bool → List Char → Read (Part × List Char)
  | 0, _, _ => .error .unterminatedBrace
  | steps + 1, quoted, text =>
    let split (body : List Char) : Option (List Char × List Char) :=
      match body with
      | [] => none
      | c :: rest =>
        if isNameStart c then some (c :: rest.takeWhile isNamePart, rest.dropWhile isNamePart)
        else if isDigit c then some (c :: rest.takeWhile isDigit, rest.dropWhile isDigit)
        else if isSpecial c then some ([c], rest)
        else none
    let counted := match text with
      | '#' :: rest =>
        match split rest with
        | some (name, '}' :: after) => some (name, after)
        | _ => none
      | _ => none
    match counted with
    | some (name, after) => .ok (.parameter name .length [] quoted, after)
    | none =>
      let invalid : Read (Part × List Char) := do
        let (_, after) ← parts lines steps (.brace quoted) text
        .ok (.parameter [] .invalid [] quoted, after)
      match split text with
      | none => invalid
      | some (name, rest) =>
        let finish (operation : Operation) (inner : Bool) (body : List Char) : Read (Part × List Char) := do
          let (argument, after) ← parts lines steps (.brace inner) body
          .ok (.parameter name operation argument quoted, after)
        match rest with
        | '}' :: after => .ok (.parameter name .value [] quoted, after)
        | ':' :: '-' :: body => finish (.orDefault true) quoted body
        | '-' :: body => finish (.orDefault false) quoted body
        | ':' :: '=' :: body => finish (.orAssign true) quoted body
        | '=' :: body => finish (.orAssign false) quoted body
        | ':' :: '?' :: body => finish (.orFail true) quoted body
        | '?' :: body => finish (.orFail false) quoted body
        | ':' :: '+' :: body => finish (.unless true) quoted body
        | '+' :: body => finish (.unless false) quoted body
        | '%' :: '%' :: body => finish (.cutEnd true) false body
        | '%' :: body => finish (.cutEnd false) false body
        | '#' :: '#' :: body => finish (.cutStart true) false body
        | '#' :: body => finish (.cutStart false) false body
        | [] => .error .unterminatedBrace
        | _ => invalid

def redirection (lines : Nat) : Nat → List Char → Read (Option (Redirection × List Char))
  | 0, _ => .ok none
  | steps + 1, text =>
    let digits := text.takeWhile isDigit
    let after := text.dropWhile isDigit
    let number := readNat? 10 digits
    let finish (standard : Nat) (direction : Direction) (rest : List Char) :
        Read (Option (Redirection × List Char)) := do
      let start := pastGap rest
      if (bareWord start).isEmpty then unexpectedAt start none
      else
        let (target, last) ← parts lines steps .bare start
        .ok (some (.to (number.getD standard) direction target, last))
    let document (dropTabs : Bool) (rest : List Char) :
        Read (Option (Redirection × List Char)) := do
      let start := pastGap rest
      let delimiter := bareWord start
      let line := (start.drop delimiter.length).takeWhile (· != '\n')
      let below := ((start.drop delimiter.length).dropWhile (· != '\n')).drop 1
      let (body, last) := documentOn dropTabs (withoutQuotes delimiter) below.length below
      let content ← if withoutQuotes delimiter == delimiter then
          (·.1) <$> parts lines steps .document body
        else pure [Part.text body true]
      .ok (some (.to (number.getD 0) .document content, line ++ '\n' :: last))
    match after with
    | '<' :: '<' :: '-' :: rest => document true rest
    | '<' :: '<' :: rest => document false rest
    | '<' :: '&' :: rest => finish 0 .sameInput rest
    | '<' :: rest => finish 0 .input rest
    | '>' :: '>' :: rest => finish 1 .append rest
    | '>' :: '&' :: rest => finish 1 .sameOutput rest
    | '>' :: '|' :: rest => finish 1 .output rest
    | '>' :: rest => finish 1 .output rest
    | _ => .ok none

def redirections (lines : Nat) : Nat → List Char → Read (List Redirection × List Char)
  | 0, text => .ok ([], text)
  | steps + 1, text => do
    match ← redirection lines steps (pastGap text) with
    | none => .ok ([], text)
    | some (first, rest) =>
      let (more, last) ← redirections lines steps rest
      .ok (first :: more, last)

def simple (lines line : Nat) : Nat → Bool → List Char → Read (Command × List Char)
  | 0, _, text => .ok (.simple line [] [] [], text)
  | steps + 1, named, text => do
    let start := pastGap text
    match ← redirection lines steps start with
    | some (first, rest) =>
      match ← simple lines line steps named rest with
      | (.simple _ assignments words more, last) => .ok (.simple line assignments words (first :: more), last)
      | other => .ok other
    | none =>
      if (bareWord start).isEmpty then .ok (.simple line [] [] [], start)
      else
        let name := start.takeWhile isNamePart
        match named, isName name, start.drop name.length with
        | false, true, '=' :: value =>
          let (content, rest) ← parts lines steps .bare value
          match ← simple lines line steps false rest with
          | (.simple _ assignments words more, last) =>
            .ok (.simple line ((name, content) :: assignments) words more, last)
          | other => .ok other
        | _, _, _ =>
          let (word, rest) ← parts lines steps .bare start
          match ← simple lines line steps true rest with
          | (.simple _ assignments words more, last) =>
            .ok (.simple line assignments (word :: words) more, last)
          | other => .ok other

def block (lines : Nat) : Nat → List Char → List Char → Read (Command × List Char)
  | 0, _, text => unexpectedAt text none
  | steps + 1, closer, text => do
    let start := pastLines steps text
    let (body, rest) ← list lines steps start
    let last := pastLines steps rest
    match body with
    | .list [] => unexpectedAt last (if last.isEmpty then some (quoteToken closer) else none)
    | _ =>
      if bareWord last == closer then .ok (body, last.drop closer.length)
      else unexpectedAt last (some (quoteToken closer))

def alternatives (lines : Nat) : Nat → List Char → Read ((Command × Option Command) × List Char)
  | 0, text => unexpectedAt text none
  | steps + 1, text => do
    let (consequent, rest) ← list lines steps (pastLines steps text)
    let last := pastLines steps rest
    let word := bareWord last
    let after := last.drop word.length
    match consequent with
    | .list [] => unexpectedAt last (if last.isEmpty then some "\"fi\"" else none)
    | _ =>
      if word == "fi".toList then .ok ((consequent, none), after)
      else if word == "else".toList then do
        let (other, final) ← block lines steps "fi".toList after
        .ok ((consequent, some other), final)
      else if word == "elif".toList then do
        let (condition, rest) ← block lines steps "then".toList after
        let ((inner, other), final) ← alternatives lines steps rest
        .ok ((consequent, some (.choice condition inner other)), final)
      else unexpectedAt last (some "\"fi\"")

def wordList (lines : Nat) : Nat → List Char → Read (List Word × List Char)
  | 0, text => .ok ([], text)
  | steps + 1, text => do
    let start := pastGap text
    if (bareWord start).isEmpty then .ok ([], start)
    else
      let (word, rest) ← parts lines steps .bare start
      let (more, last) ← wordList lines steps rest
      .ok (word :: more, last)

def patterns (lines : Nat) : Nat → List Char → Read (List Word × List Char)
  | 0, text => unexpectedAt text none
  | steps + 1, text => do
    let start := pastGap text
    if (bareWord start).isEmpty then
      unexpectedAt start (if start.isEmpty then some "\")\"" else none)
    else
      let (word, rest) ← parts lines steps .bare start
      match pastGap rest with
      | '|' :: more => do
        let (others, last) ← patterns lines steps more
        .ok (word :: others, last)
      | ')' :: last => .ok ([word], last)
      | other => unexpectedAt other (some "\")\"")

def arms (lines : Nat) : Nat → List Char → Read (List (List Word × Command) × List Char)
  | 0, text => unexpectedAt text none
  | steps + 1, text => do
    let start := pastLines steps text
    if bareWord start == "esac".toList then .ok ([], start.drop 4)
    else
      let opened := match start with
        | '(' :: rest => rest
        | _ => start
      let (choices, rest) ← patterns lines steps opened
      let (body, after) ← list lines steps (pastLines steps rest)
      match pastLines steps after with
      | ';' :: ';' :: more => do
        let (others, last) ← arms lines steps more
        .ok ((choices, body) :: others, last)
      | other =>
        if bareWord other == "esac".toList then .ok ([(choices, body)], other.drop 4)
        else unexpectedAt other (some "\";;\"")

def compound (lines : Nat) : Nat → List Char → Read (Option (Command × List Char))
  | 0, _ => .ok none
  | steps + 1, text => do
    let word := bareWord text
    let rest := text.drop word.length
    match text with
    | '(' :: inner =>
      let (body, after) ← list lines steps (pastLines steps inner)
      match body, pastLines steps after with
      | .list [], [] => unexpectedAt [] (some "\")\"")
      | .list [], other => unexpectedAt other none
      | _, ')' :: last => .ok (some (.subshell body, last))
      | _, other => unexpectedAt other (some "\")\"")
    | _ =>
      if word == ['{'] then do
        let (body, last) ← block lines steps ['}'] rest
        .ok (some (body, last))
      else if word == "if".toList then do
        let (condition, after) ← block lines steps "then".toList rest
        let ((consequent, other), last) ← alternatives lines steps after
        .ok (some (.choice condition consequent other, last))
      else if word == "while".toList || word == "until".toList then do
        let (condition, after) ← block lines steps "do".toList rest
        let (body, last) ← block lines steps "done".toList after
        .ok (some (.loop (word == "while".toList) condition body, last))
      else if word == "for".toList then do
        let start := pastGap rest
        let name := bareWord start
        if !isName name then .error .badLoopVariable
        else
          let after := pastLines steps (start.drop name.length)
          let (items, after) ← if bareWord after == "in".toList then do
              let (words, more) ← wordList lines steps (after.drop 2)
              pure (some words, more)
            else pure (none, after)
          let after := match pastGap after with
            | ';' :: more => more
            | more => more
          let opened := pastLines steps after
          if bareWord opened == "do".toList then do
            let (body, last) ← block lines steps "done".toList (opened.drop 2)
            .ok (some (.each name items body, last))
          else unexpectedAt opened (some "\"do\"")
      else if word == "case".toList then do
        let (subject, after) ← parts lines steps .bare (pastGap rest)
        let opened := pastLines steps after
        if bareWord opened == "in".toList then do
          let (found, last) ← arms lines steps (opened.drop 2)
          .ok (some (.cases subject found, last))
        else unexpectedAt opened (some "\"in\"")
      else .ok none

def command (lines : Nat) : Nat → List Char → Read (Command × List Char)
  | 0, text => unexpectedAt text none
  | steps + 1, text => do
    let start := pastGap text
    let word := bareWord start
    match ← compound lines steps start with
    | some (body, rest) =>
      let (targets, last) ← redirections lines steps rest
      .ok (if targets.isEmpty then body else .redirected body targets, last)
    | none =>
      if closers.contains word || reserved.contains word then unexpectedAt start none
      else
        match isPlainWord word, pastGap (start.drop word.length) with
        | true, '(' :: more =>
          match pastGap more with
          | ')' :: rest => do
            if !isName word then .error .badFunctionName
            else
              let (body, last) ← command lines steps (pastLines steps rest)
              .ok (.define word body, last)
          | other => unexpectedAt other (some "\")\"")
        | _, _ =>
          let line := lines + 1 - start.count '\n'
          let (found, last) ← simple lines line steps false start
          match found with
          | .simple _ [] [] [] => unexpectedAt last none
          | _ => .ok (found, last)

def stages (lines : Nat) : Nat → List Char → Read (List Command × List Char)
  | 0, text => unexpectedAt text none
  | steps + 1, text => do
    let (first, rest) ← command lines steps text
    match pastGap rest with
    | '|' :: '|' :: _ => .ok ([first], rest)
    | '|' :: more => do
      let (others, last) ← stages lines steps (pastLines steps more)
      .ok (first :: others, last)
    | _ => .ok ([first], rest)

def pipeline (lines : Nat) : Nat → List Char → Read (Command × List Char)
  | 0, text => unexpectedAt text none
  | steps + 1, text => do
    let start := pastGap text
    if bareWord start == ['!'] then do
      let inner := pastGap (start.drop 1)
      if bareWord inner == ['!'] then unexpectedAt inner none
      else
        let (body, rest) ← pipeline lines steps inner
        .ok (.negated body, rest)
    else
      match ← stages lines steps start with
      | ([only], rest) => .ok (only, rest)
      | (several, rest) => .ok (.pipeline several, rest)

def joined (lines : Nat) : Nat → Command → List Char → Read (Command × List Char)
  | 0, first, text => .ok (first, text)
  | steps + 1, first, text =>
    match pastGap text with
    | '&' :: '&' :: rest => do
      let (second, after) ← pipeline lines steps (pastLines steps rest)
      joined lines steps (.both first second) after
    | '|' :: '|' :: rest => do
      let (second, after) ← pipeline lines steps (pastLines steps rest)
      joined lines steps (.either first second) after
    | rest => .ok (first, rest)

def list (lines : Nat) : Nat → List Char → Read (Command × List Char)
  | 0, text => .ok (.list [], text)
  | steps + 1, text => do
    let start := pastLines steps text
    match start with
    | [] => .ok (.list [], [])
    | ')' :: _ => .ok (.list [], start)
    | ';' :: ';' :: _ => .ok (.list [], start)
    | _ =>
      if closers.contains (bareWord start) then .ok (.list [], start)
      else
        let (first, rest) ← pipeline lines steps start
        let (first, rest) ← joined lines steps first rest
        match rest with
        | ';' :: ';' :: _ => .ok (.list [(false, first)], rest)
        | ';' :: more => goOn lines steps false first more
        | '&' :: more => goOn lines steps true first more
        | '\n' :: more => goOn lines steps false first more
        | _ => .ok (.list [(false, first)], rest)

def goOn (lines : Nat) : Nat → Bool → Command → List Char → Read (Command × List Char)
  | 0, _, first, text => .ok (first, text)
  | steps + 1, background, first, text => do
    match ← list lines steps text with
    | (.list more, rest) => .ok (.list ((background, first) :: more), rest)
    | other => .ok other

end

def lineOn (lines : Nat) : Nat → List Char → Read (List (Bool × Command) × List Char)
  | 0, text => .ok ([], text)
  | steps + 1, text => do
    let (first, rest) ← pipeline lines steps text
    let (first, rest) ← joined lines steps first rest
    match rest with
    | [] => .ok ([(false, first)], [])
    | '\n' :: more => .ok ([(false, first)], more)
    | ';' :: ';' :: _ => unexpectedAt rest none
    | c :: more =>
      if c == ';' || c == '&' then
        match pastGap more with
        | [] => .ok ([(c == '&', first)], [])
        | '\n' :: below => .ok ([(c == '&', first)], below)
        | next => do
          let (others, last) ← lineOn lines steps next
          .ok ((c == '&', first) :: others, last)
      else unexpectedAt rest none

/-- The next line of commands of a script of so many lines; none at its end. -/
def nextLine (lines : Nat) (text : List Char) : Read (Option (Command × List Char)) := do
  let steps := 16 * (text.length + 4)
  match pastLines steps text with
  | [] => .ok none
  | start =>
    let (items, rest) ← lineOn lines steps start
    .ok (some (.list items, rest))

end FlagSurvey.Shell.Reader

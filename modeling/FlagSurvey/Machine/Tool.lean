import FlagSurvey.Shell.Condition
import FlagSurvey.Shell.Format
import FlagSurvey.Shell.Redirection
import FlagSurvey.Text.Order

/-! The programs that a machine brings along and that run no other program. Each takes the words after its
name and gives its exit code. -/
namespace FlagSurvey.Machine.Tool

open Number Shell

def complain (words : Octets) : Action Nat := do
  discard (emit 2 ((← get).shell.name ++ ": ".toList ++ words ++ ['\n']))
  return 1

def misused (words : Octets) : Action Nat := do
  complain (words ++ "\nTry '".toList ++ (← get).shell.name ++ " --help' for more information.".toList)

def answer (octets : Octets) : Action Nat := do
  if octets.isEmpty then return 0
  else if ← emit 1 octets then return 0
  else complain "write error: Bad file descriptor".toList

def cannotOpen (path : Octets) (fault : PathFault) : Action Nat :=
  complain (path ++ ": ".toList ++ fault.description.toList)

def inputText : Action Octets := do
  let before ← source? 0
  discard (readAll 0 fun _ => pure ())
  return match before with
    | some (_, source) => source.pieces.flatMap (·.2)
    | none => []

def fileText (path : Octets) : Action (Except PathFault Octets) := do
  if standardDescriptor? path == some 0 then return .ok (← inputText)
  else return ((← get).host.directory.read (textOf path)).map toOctets

/-- The texts of the files given, or of the standard input if there are none, and the code of what could
not be read. -/
def texts (paths : List Octets) : Action (List (Octets × Octets) × Nat) := do
  let mut found := []
  let mut code := 0
  for path in if paths.isEmpty then [['-']] else paths do
    if path == ['-'] then found := (path, ← inputText) :: found
    else
      match ← fileText path with
      | .ok text => found := (path, text) :: found
      | .error fault =>
        discard (cannotOpen path fault)
        code := 1
  return (found.reverse, code)

def linesOf : Nat → Octets → List Octets
  | 0, _ => []
  | _, [] => []
  | steps + 1, text =>
    let first := text.takeWhile (· != '\n')
    match text.drop first.length with
    | [] => [first]
    | _ :: rest => (first ++ ['\n']) :: linesOf steps rest

def options : List Octets → List Char × List Octets
  | [] => ([], [])
  | word :: rest =>
    match word with
    | ['-', '-'] => ([], rest)
    | '-' :: c :: letters =>
      let (more, last) := options rest
      (c :: letters ++ more, last)
    | _ => ([], word :: rest)

def cat (words : List Octets) : Action Nat := do
  let (_, paths) := options words
  let mut code := 0
  for path in if paths.isEmpty then [['-']] else paths do
    if path == ['-'] then
      if !(← readAll 0 fun piece => discard (emit 1 piece)) then
        discard (complain "-: Bad file descriptor".toList)
        code ← complain "closing standard input: Bad file descriptor".toList
    else
      match ← fileText path with
      | .ok text => code := max code (← answer text)
      | .error fault => code ← cannotOpen path fault
  return code

def echo (words : List Octets) : Action Nat := do
  let isOption (word : Octets) : Bool :=
    match word with
    | '-' :: c :: rest => (c :: rest).all fun l => l == 'n' || l == 'e' || l == 'E'
    | _ => false
  let flags := (words.takeWhile isOption).flatten
  let text := [' '].intercalate (words.dropWhile isOption)
  let escapes := (flags.reverse.find? fun l => l == 'e' || l == 'E') == some 'e'
  let (text, stops) := if escapes then Format.unescape (text.length + 1) text else (text, false)
  answer (if stops || flags.contains 'n' then text else text ++ ['\n'])

def printf (words : List Octets) : Action Nat := do
  match words with
  | [] => misused "missing operand".toList
  | format :: arguments =>
    let (text, complaints, _) := Format.apply format arguments
    let code ← answer text
    for words in complaints do discard (complain words)
    return if complaints.isEmpty then code else 1

/-- The nanoseconds that a duration writes, with a unit of seconds unless it names another; none at all for
a duration without an end. -/
def duration? (text : Octets) : Option (Option Nat) :=
  if text == "inf".toList || text == "infinity".toList then some none
  else
    let (unit, text) := match text.reverse with
      | 's' :: rest => (1, rest.reverse)
      | 'm' :: rest => (60, rest.reverse)
      | 'h' :: rest => (3600, rest.reverse)
      | 'd' :: rest => (86400, rest.reverse)
      | _ => (1, text)
    let whole := text.takeWhile isDigit
    let part := match text.drop whole.length with
      | '.' :: rest => some rest
      | [] => some []
      | _ => none
    match part with
    | none => none
    | some part =>
      if (whole.isEmpty && part.isEmpty) || !part.all isDigit then none
      else
        let digits := (readNat? 10 (whole ++ part)).getD 0
        some (some (digits * unit * 1000000000 / Nat.pow 10 part.length))

def sleep (words : List Octets) : Action Nat := do
  if words.isEmpty then misused "missing operand".toList
  else
    match words.find? fun word => (duration? word).isNone with
    | some word => misused ("invalid time interval '".toList ++ word ++ ['\x27'])
    | none =>
      for word in words do
        match duration? word with
        | some (some time) => spend time
        | _ => stopHere
      return 0

structure Amount where
  inOctets : Bool
  inverse : Bool
  count : Nat

def amount : Nat → Amount → List Octets → Except Octets (Amount × List Octets)
  | 0, given, words => .ok (given, words)
  | steps + 1, given, words =>
    let read (inOctets : Bool) (text : Octets) (rest : List Octets) :
        Except Octets (Amount × List Octets) :=
      let (inverse, digits) := match text with
        | '-' :: digits => (true, digits)
        | '+' :: digits => (true, digits)
        | _ => (false, text)
      match readNat? 10 digits with
      | some count => amount steps ⟨inOctets, inverse, count⟩ rest
      | none => .error text
    match words with
    | ['-', 'n'] :: text :: rest => read false text rest
    | ['-', 'c'] :: text :: rest => read true text rest
    | ('-' :: 'n' :: text) :: rest => read false text rest
    | ('-' :: 'c' :: text) :: rest => read true text rest
    | ['-', '-'] :: rest => .ok (given, rest)
    | ['-', 'q'] :: rest => amount steps given rest
    | ('-' :: c :: text) :: rest => if isDigit c then read false (c :: text) rest else .ok (given, words)
    | _ => .ok (given, words)

def invalidAmount (text : Octets) : Action Nat :=
  complain ("invalid number of lines: '".toList ++ text ++ ['\x27'])

def passLines : Nat → Action Unit
  | 0 => pure ()
  | count + 1 => do
    match ← readLine 0 with
    | none => pure ()
    | some [] => pure ()
    | some line =>
      discard (emit 1 line)
      passLines count

def head (words : List Octets) : Action Nat := do
  match amount words.length ⟨false, false, 10⟩ words with
  | .error text => invalidAmount text
  | .ok (given, paths) =>
    if paths.isEmpty && !given.inOctets && !given.inverse then
      passLines given.count
      return 0
    else
      let (found, code) ← texts paths
      for (path, text) in found do
        if found.length > 1 then
          discard (answer ("==> ".toList ++ path ++ " <==\n".toList))
        let units := if given.inOctets then text.map ([·]) else linesOf (text.length + 1) text
        let count := if given.inverse then units.length - given.count else given.count
        discard (answer (units.take count).flatten)
      return code

def tail (words : List Octets) : Action Nat := do
  match amount words.length ⟨false, false, 10⟩ words with
  | .error text => invalidAmount text
  | .ok (given, paths) =>
    let (found, code) ← texts paths
    for (path, text) in found do
      if found.length > 1 then
        discard (answer ("==> ".toList ++ path ++ " <==\n".toList))
      let units := if given.inOctets then text.map ([·]) else linesOf (text.length + 1) text
      let dropped := if given.inverse then given.count - 1 else units.length - given.count
      discard (answer (units.drop dropped).flatten)
    return code

def isBlank (c : Char) : Bool := c == ' ' || ('\t' ≤ c && c ≤ '\r')

def countWords : Bool → Octets → Nat
  | _, [] => 0
  | within, c :: rest =>
    if isBlank c then countWords false rest
    else if within then countWords true rest
    else countWords true rest + 1

def wc (words : List Octets) : Action Nat := do
  let (flags, paths) := options words
  let flags := if flags.isEmpty then ['l', 'w', 'c'] else flags
  let (found, code) ← texts paths
  let counts (text : Octets) : List Nat :=
    [('l', text.count '\n'), ('w', countWords false text), ('m', text.length), ('c', text.length)].filterMap
      fun entry => if flags.contains entry.1 then some entry.2 else none
  let total := found.foldl (fun sum entry => sum + entry.2.length) 0
  let width :=
    if paths.isEmpty then if flags.length == 1 then 1 else 7
    else if flags.length == 1 && found.length == 1 then 1
    else (decimal total).length
  let row (numbers : List Nat) (path : Octets) : Octets :=
    let shown := numbers.map fun n =>
      let digits := decimal n
      List.replicate (width - digits.length) ' ' ++ digits
    [' '].intercalate shown ++ (if path.isEmpty then [] else ' ' :: path) ++ ['\n']
  for (path, text) in found do
    discard (answer (row (counts text) (if paths.isEmpty then [] else path)))
  if found.length > 1 then
    let all := (found.map fun entry => counts entry.2).foldl
      (fun sums numbers => if sums.isEmpty then numbers else sums.zipWith (· + ·) numbers) []
    discard (answer (row all "total".toList))
  return code

def charSet : Nat → Octets → Octets
  | 0, _ => []
  | _, [] => []
  | steps + 1, low :: '-' :: high :: rest =>
    (List.range (high.toNat + 1 - low.toNat)).map (fun n => Char.ofNat (low.toNat + n)) ++
      charSet steps rest
  | steps + 1, c :: rest => c :: charSet steps rest

def classes : List (String × String) :=
  [("[:upper:]", "A-Z"), ("[:lower:]", "a-z"), ("[:digit:]", "0-9"), ("[:alpha:]", "A-Za-z"),
    ("[:alnum:]", "0-9A-Za-z"), ("[:space:]", "\t-\x0d ")]

def setOf (word : Octets) : Octets :=
  let (text, _) := Format.unescape (word.length + 1) word
  let text := ((classes.lookup (String.ofList text)).map String.toList).getD text
  charSet (text.length + 1) text

def squeeze (set : Octets) : Option Char → Octets → Octets
  | _, [] => []
  | last, c :: rest =>
    if last == some c && set.contains c then squeeze set last rest else c :: squeeze set (some c) rest

def tr (words : List Octets) : Action Nat := do
  let (flags, sets) := options words
  let first := setOf (sets.headD [])
  let second := setOf ((sets.drop 1).headD [])
  let isMember (c : Char) : Bool :=
    first.contains c != (flags.contains 'c' || flags.contains 'C')
  let replace (c : Char) : Char :=
    if !isMember c then c
    else if flags.contains 'c' then (second.getLast?).getD c
    else (second[first.idxOf c]?).getD (second.getLast?.getD c)
  let deletes := flags.contains 'd'
  let change (text : Octets) : Octets :=
    let text := if deletes then text.filter fun c => !isMember c
      else if second.isEmpty then text
      else text.map replace
    if flags.contains 's' then squeeze (if second.isEmpty then first else second) none text else text
  discard (readAll 0 fun piece => discard (answer (change piece)))
  return 0

def seq (words : List Octets) : Action Nat := do
  let read (word : Octets) : Option Int := readSigned? (String.ofList word)
  match words.find? fun word => (read word).isNone with
  | some word =>
    misused ("invalid floating point argument: '".toList ++ word ++ ['\x27'])
  | none =>
    let (first, step, last) : Int × Int × Int := match words.filterMap read with
      | [last] => (1, 1, last)
      | [first, last] => (first, 1, last)
      | first :: step :: last :: _ => (first, step, last)
      | [] => (1, 1, 0)
    if step == 0 then complain "invalid Zero increment value: '0'".toList
    else
      let count := if (0 < step) then ((last - first) / step + 1).toNat
        else ((first - last) / (-step) + 1).toNat
      answer ((List.range count).flatMap fun (n : Nat) =>
        decimalInt (first + (n : Int) * step) ++ ['\n'])

def lastName (path : Octets) : Octets :=
  let kept := (path.reverse.dropWhile (· == '/')).reverse
  if kept.isEmpty then path.take 1 else (kept.reverse.takeWhile (· != '/')).reverse

def basename (words : List Octets) : Action Nat := do
  match words with
  | path :: ending :: _ =>
    let name := lastName path
    let cut := if name != ending && ending.isSuffixOf name then name.take (name.length - ending.length)
      else name
    answer (cut ++ ['\n'])
  | [path] => answer (lastName path ++ ['\n'])
  | [] => misused "missing operand".toList

def dirname (words : List Octets) : Action Nat := do
  let path := words.headD []
  let kept := path.reverse.dropWhile (· == '/')
  let before := (kept.dropWhile (· != '/')).dropWhile (· == '/')
  let shown := if !before.isEmpty then before.reverse
    else if path.head? == some '/' then ['/'] else ['.']
  answer (shown ++ ['\n'])

def mkdir (words : List Octets) : Action Nat := do
  let (flags, paths) := options words
  let mut code := 0
  for path in paths do
    let directory := (← get).host.directory
    let made := if flags.contains 'p' then directory.makeFolders (textOf path)
      else directory.makeFolder (textOf path)
    match made with
    | .ok directory => modifyHost fun h => { h with directory }
    | .error fault =>
      code ← complain ("cannot create directory '".toList ++ path ++ "': ".toList ++
        fault.description.toList)
  return code

def rm (words : List Octets) : Action Nat := do
  let (flags, paths) := options words
  let recursive := flags.contains 'r' || flags.contains 'R'
  let mut code := 0
  for path in paths do
    let directory := (← get).host.directory
    let refuse (why : String) : Action Nat :=
      complain ("cannot remove '".toList ++ path ++ "': ".toList ++ why.toList)
    match directory.locate (textOf path), directory.node (textOf path) with
    | .ok names, .ok node =>
      if node.isFolder && !recursive then code ← refuse "Is a directory"
      else
        modifyHost fun h =>
          { h with directory := { h.directory with root := h.directory.root.remove names } }
    | _, .error fault =>
      if !(flags.contains 'f' && fault == .missing) then code ← refuse fault.description
    | .error fault, _ => code ← refuse fault.description
  return code

def touch (words : List Octets) : Action Nat := do
  let mut code := 0
  for path in (options words).2 do
    let directory := (← get).host.directory
    match directory.node (textOf path), directory.write (textOf path) [] with
    | .ok _, _ => pure ()
    | _, .ok directory => modifyHost fun h => { h with directory }
    | _, .error fault =>
      code ← complain ("cannot touch '".toList ++ path ++ "': ".toList ++ fault.description.toList)
  return code

def ls (words : List Octets) : Action Nat := do
  let (flags, paths) := options words
  let mut code := 0
  let directory := (← get).host.directory
  for path in if paths.isEmpty then [['.']] else paths do
    match directory.node (textOf path) with
    | .ok (.folder entries) =>
      if paths.length > 1 then discard (answer (path ++ ":\n".toList))
      let names := (entries.map fun entry => octetsOf entry.1).filter fun name =>
        flags.contains 'a' || flags.contains 'A' || name.head? != some '.'
      let names := if flags.contains 'a' then ['.'] :: ['.', '.'] :: names else names
      discard (answer ((names.mergeSort Text.precedes).flatMap (· ++ ['\n'])))
    | .ok _ => discard (answer (path ++ ['\n']))
    | .error fault =>
      discard (complain ("cannot access '".toList ++ path ++ "': ".toList ++
        fault.description.toList))
      code := 2
  return code

def expr (words : List Octets) : Action Nat := do
  let give (text : Octets) : Action Nat := do
    discard (answer (text ++ ['\n']))
    return if text.isEmpty || text == ['0'] then 1 else 0
  let refuse (why : String) : Action Nat := do
    discard (complain why.toList)
    return 2
  let number (word : Octets) : Option Int := readSigned? (String.ofList word)
  match words with
  | [text] => give text
  | [first, operation, second] =>
    let truth (b : Bool) : Action Nat := give (if b then ['1'] else ['0'])
    match number first, number second, String.ofList operation with
    | _, _, "|" => give (if first.isEmpty || first == ['0'] then second else first)
    | _, _, "&" =>
      give (if first.isEmpty || first == ['0'] || second.isEmpty || second == ['0'] then ['0'] else first)
    | some a, some b, "+" => give (decimalInt (a + b))
    | some a, some b, "-" => give (decimalInt (a - b))
    | some a, some b, "*" => give (decimalInt (a * b))
    | some a, some b, "/" => if b == 0 then refuse "division by zero" else give (decimalInt (a.tdiv b))
    | some a, some b, "%" => if b == 0 then refuse "division by zero" else give (decimalInt (a.tmod b))
    | some a, some b, "<" => truth (decide (a < b))
    | some a, some b, "<=" => truth (decide (a ≤ b))
    | some a, some b, ">" => truth (decide (b < a))
    | some a, some b, ">=" => truth (decide (b ≤ a))
    | some a, some b, "=" => truth (a == b)
    | some a, some b, "!=" => truth (a != b)
    | _, _, "=" => truth (first == second)
    | _, _, "!=" => truth (first != second)
    | _, _, "<" => truth (decide (first < second))
    | _, _, ">" => truth (decide (second < first))
    | _, _, _ => if ["+", "-", "*", "/", "%"].contains (String.ofList operation)
      then refuse "non-integer argument" else refuse "syntax error"
  | [] => do
    discard (misused "missing operand".toList)
    return 2
  | _ => refuse "syntax error"

/-- What a program writes into a pipe before it finds that nothing reads it. -/
def pipeCapacity : Nat := 524288

def yes (words : List Octets) : Action Nat := do
  let line := (if words.isEmpty then ['y'] else [' '].intercalate words) ++ ['\n']
  match ← handle? 1 with
  | some (.stream number) =>
    if number < 2 then
      stopHere
      return 0
    else
      discard (emit 1 (List.replicate (pipeCapacity / line.length + 1) line).flatten)
      throw (.slain Signal.brokenPipe)
  | some _ =>
    stopHere
    return 0
  | none => complain "standard output: Bad file descriptor".toList

def sort (words : List Octets) : Action Nat := do
  let (flags, paths) := options words
  let (found, code) ← texts paths
  let lines := found.flatMap fun entry => linesOf (entry.2.length + 1) entry.2
  let lines := lines.map fun line => line.takeWhile (· != '\n')
  let key (line : Octets) : Int :=
    let start := line.dropWhile isBlank
    let (negative, digits) := takeSign start
    let value : Int := (readNat? 10 (digits.takeWhile isDigit)).getD 0
    if negative then -value else value
  let before (a b : Octets) : Bool :=
    if flags.contains 'n' && key a != key b then decide (key a < key b) else Text.precedes a b
  let sorted := lines.mergeSort before
  let sorted := if flags.contains 'r' then sorted.reverse else sorted
  let sorted := if flags.contains 'u' then sorted.eraseReps else sorted
  return max code (← answer (sorted.flatMap (· ++ ['\n'])))

def tee (words : List Octets) : Action Nat := do
  let (flags, paths) := options words
  let text ← inputText
  for path in paths do
    let directory := (← get).host.directory
    let old := if flags.contains 'a' then (directory.read (textOf path)).toOption.getD [] else []
    match directory.write (textOf path) (old ++ toBytes text) with
    | .ok directory => modifyHost fun h => { h with directory }
    | .error fault => discard (cannotOpen path fault)
  answer text

def signalOf (words : List Octets) : Except Octets (Nat × List Octets) :=
  let named (name : Octets) (rest : List Octets) : Except Octets (Nat × List Octets) :=
    match Signal.ofLongText? name with
    | some signal => .ok (signal, if rest.head? == some ['-', '-'] then rest.drop 1 else rest)
    | none => .error name
  match words with
  | ['-', '-'] :: rest => .ok (Signal.terminate, rest)
  | ['-', 's'] :: name :: rest => named name rest
  | ('-' :: name) :: rest => named name rest
  | _ => .ok (Signal.terminate, words)

def kill (words : List Octets) : Action Nat := do
  match signalOf words with
  | .error name => complain ("unknown signal ".toList ++ name)
  | .ok (signal, targets) =>
    let mut code := 0
    for word in targets do
      match target? word with
      | some 0 => sendAll signal
      | some pid =>
        if !(← send signal pid) then
          code ← complain (['('] ++ word ++ "): No such process".toList)
      | none => code ← complain ("failed to parse argument: '".toList ++ word ++ ['\x27'])
    return code

def condition (bracketed : Bool) (words : List Octets) : Action Nat := do
  let directory := (← get).host.directory
  let result := if bracketed then Condition.evaluateBracketed directory words
    else Condition.evaluate directory words
  match result with
  | .ok holds => return if holds then 0 else 1
  | .error fault =>
    discard (complain fault.message)
    return 2

def pwd : Action Nat := do
  let here := (← get).host.directory.here
  answer (octetsOf ("/" ++ "/".intercalate here) ++ ['\n'])

def run? (name : String) (words : List Octets) : Option (Action Nat) :=
  match name with
  | "true" => some (pure 0)
  | "false" => some (pure 1)
  | "cat" => some (cat words)
  | "echo" => some (echo words)
  | "printf" => some (printf words)
  | "sleep" => some (sleep words)
  | "head" => some (head words)
  | "tail" => some (tail words)
  | "wc" => some (wc words)
  | "tr" => some (tr words)
  | "seq" => some (seq words)
  | "basename" => some (basename words)
  | "dirname" => some (dirname words)
  | "mkdir" => some (mkdir words)
  | "rm" => some (rm words)
  | "touch" => some (touch words)
  | "ls" => some (ls words)
  | "expr" => some (expr words)
  | "yes" => some (yes words)
  | "sort" => some (sort words)
  | "tee" => some (tee words)
  | "kill" => some (kill words)
  | "test" => some (condition false words)
  | "[" => some (condition true words)
  | "pwd" => some pwd
  | _ => none

end FlagSurvey.Machine.Tool

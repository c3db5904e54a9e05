import FlagSurvey.Shell.Condition
import FlagSurvey.Shell.Field
import FlagSurvey.Shell.Format
import FlagSurvey.Shell.Job

/-! Commands that a shell carries out itself and that run no other command. Each takes the words after its
name and gives its status. An error in a special command ends the script. -/
namespace FlagSurvey.Shell.Builtin

open Number

def isSpecial (name : Octets) : Bool :=
  [".", ":", "break", "continue", "eval", "exec", "exit", "export", "readonly", "return", "set",
    "shift", "times", "trap", "unset"].contains (String.ofList name)

def refuse (words : Octets) : Action Nat := do
  complain words
  return 2

def numberFor (word : Octets) : Action Nat := do
  match readNat? 10 word with
  | some n => return n
  | none => fail ("Illegal number: ".toList ++ word)

def illegalOption (sign letter : Char) : Octets := "Illegal option ".toList ++ [sign, letter]

def answer (name : String) (octets : Octets) : Action Nat := do
  if octets.isEmpty then return 0
  else if ← emit 1 octets then return 0
  else
    complain (name ++ ": I/O error").toList
    return 1

def echo (words : List Octets) : Action Nat := answer "echo" (Format.line words)

def printf (words : List Octets) : Action Nat := do
  match words with
  | ['-', '-'] :: format :: arguments => write format arguments
  | [] | [['-', '-']] => refuse "usage: printf format [arg ...]".toList
  | ('-' :: letter :: _) :: _ => refuse (illegalOption '-' letter)
  | format :: arguments => write format arguments
where
  write (format : Octets) (arguments : List Octets) : Action Nat := do
    let (text, complaints, unusable) := Format.apply format arguments
    for words in complaints do complain words
    let code ← answer "printf" text
    return if unusable then 2 else if complaints.isEmpty then code else 1

def condition (bracketed : Bool) (words : List Octets) : Action Nat := do
  let directory := (← get).host.directory
  let result := if bracketed then Condition.evaluateBracketed directory words
    else Condition.evaluate directory words
  match result with
  | .ok holds => return if holds then 0 else 1
  | .error fault => refuse fault.message

def exit (words : List Octets) : Action Nat := do
  match words with
  | [] => throw (.exit (← get).shell.status)
  | word :: _ => throw (.exit ((← numberFor word) % 256))

def leaveCall (words : List Octets) : Action Nat := do
  match words with
  | [] => throw (.return (← get).shell.status)
  | word :: _ => throw (.return ((← numberFor word) % 256))

/-- Leaves loops, or goes on with their next round; outside of any it does nothing. -/
def jump (flow : Nat → Flow) (words : List Octets) : Action Nat := do
  let levels ← match words with
    | [] => pure 1
    | word :: _ => numberFor word
  if levels == 0 then fail "Illegal number: 0".toList
  else
    let loops := (← get).shell.loops
    if loops == 0 then return 0 else throw (flow (min levels loops))

def shift (words : List Octets) : Action Nat := do
  let count ← match words with
    | [] => pure 1
    | word :: _ => numberFor word
  let parameters := (← get).shell.parameters
  if parameters.length < count then fail "can't shift that many".toList
  else
    modifyShell fun sh => { sh with parameters := parameters.drop count }
    return 0

def quoted (text : Octets) : Octets :=
  ['\x27'] ++ text.flatMap (fun c => if c == '\x27' then "'\"'\"'".toList else [c]) ++ ['\x27']

def listed (lead : String) (entries : List (Octets × Variable)) : Octets :=
  let sorted := entries.mergeSort fun a b => Text.precedes a.1 b.1
  sorted.flatMap fun (name, entry) =>
    lead.toList ++ name ++
      (match entry.value with
        | some value => '=' :: quoted value
        | none => []) ++ ['\n']

def optionLetters : List Char := "aefnuvxIimsVECbqpl".toList

def setOption (sh : Session) (on : Bool) (option : Octets) : Session :=
  match String.ofList option with
  | "e" | "errexit" => { sh with exitOnError := on }
  | "u" | "nounset" => { sh with unsetIsError := on }
  | "f" | "noglob" => { sh with noGlob := on }
  | "x" | "xtrace" => { sh with trace := on }
  | "n" | "noexec" => { sh with readOnly := on }
  | _ => sh

def readOptions : List Octets → Action (List Octets × Bool)
  | [] => return ([], false)
  | word :: rest => do
    let (on, letters) := match word with
      | '-' :: letters => (true, letters)
      | '+' :: letters => (false, letters)
      | _ => (true, [])
    if word == ['-', '-'] then return (rest, true)
    else if letters.isEmpty then return (word :: rest, true)
    else if letters == ['o'] then
      match rest with
      | name :: rest =>
        modifyShell fun sh => setOption sh on name
        readOptions rest
      | [] => return ([], false)
    else
      for letter in letters do
        if !optionLetters.contains letter then fail (illegalOption (if on then '-' else '+') letter)
        modifyShell fun sh => setOption sh on [letter]
      readOptions rest

def set (words : List Octets) : Action Nat := do
  if words.isEmpty then
    let entries := (← get).shell.bindings.filter fun entry => entry.2.value.isSome
    answer "set" (listed "" entries)
  else
    let (rest, replaces) ← readOptions words
    if replaces then modifyShell fun sh => { sh with parameters := rest }
    return 0

def unset (words : List Octets) : Action Nat := do
  let (functions, names) := match words with
    | ['-', 'f'] :: rest => (true, rest)
    | ['-', 'v'] :: rest => (false, rest)
    | _ => (false, words)
  for name in names do
    if functions then modifyShell fun sh => { sh with functions := erase name sh.functions }
    else if ((← get).shell.bindings.lookup name).any (·.readOnly) then
      fail (name ++ ": is read only".toList)
    else modifyShell fun sh => { sh with bindings := erase name sh.bindings }
  return 0

def assignment (word : Octets) : Octets × Option Octets :=
  let name := word.takeWhile (· != '=')
  match word.drop name.length with
  | _ :: value => (name, some value)
  | [] => (name, none)

def isVariableName (name : Octets) : Bool :=
  match name with
  | c :: rest => (isLetter c || c == '_') && rest.all fun c => isAlphanumeric c || c == '_'
  | [] => false

def mark (command : String) (wanted : Variable → Bool) (change : Variable → Variable)
    (words : List Octets) : Action Nat := do
  let words := words.filter (· != ['-', 'p'])
  if words.isEmpty then
    let entries := (← get).shell.bindings.filter fun entry => wanted entry.2
    answer command (listed (command ++ " ") entries)
  else
    for word in words do
      let (name, value) := assignment word
      if !isVariableName name then fail (name ++ ": bad variable name".toList)
      match value with
      | some value => assign name value
      | none => pure ()
      modifyShell fun sh =>
        let old := (sh.bindings.lookup name).getD ⟨none, false, false⟩
        { sh with bindings := insert name (change old) sh.bindings }
    return 0

def declareLocal (words : List Octets) : Action Nat := do
  if (← get).shell.hidden.isEmpty then fail "not in a function".toList
  for word in words do
    let (name, value) := assignment word
    if !isVariableName name then fail (name ++ ": bad variable name".toList)
    modifyShell fun sh =>
      match sh.hidden with
      | frame :: outer => { sh with hidden := ((name, sh.bindings.lookup name) :: frame) :: outer }
      | [] => sh
    match value with
    | some value => assign name value
    | none => pure ()
  return 0

def pathText (names : List String) : Octets := octetsOf ("/" ++ "/".intercalate names)

def cd (words : List Octets) : Action Nat := do
  let words := words.filter fun word => word != ['-', 'L'] && word != ['-', 'P'] && word != ['-', '-']
  let s ← get
  let back := words.head? == some ['-']
  let target := match words with
    | [] => (s.shell.valueOf? "HOME".toList).getD []
    | word :: _ => if back then (s.shell.valueOf? "OLDPWD".toList).getD [] else word
  let directory := s.host.directory
  match directory.locate (textOf target), directory.isFolder (textOf target) with
  | .ok names, true =>
    assign "OLDPWD".toList (pathText directory.here)
    assign "PWD".toList (pathText names)
    modifyHost fun h => { h with directory := { h.directory with here := names } }
    if back then answer "cd" (pathText names ++ ['\n']) else return 0
  | _, _ => refuse ("can't cd to ".toList ++ target)

def pwd : Action Nat := do
  answer "pwd" (pathText (← get).host.directory.here ++ ['\n'])

/-- The characters of a line that was read, those after a backslash as quoted, and whether it goes on. -/
def unquote (raw : Bool) : Octets → List (Char × Bool) × Bool
  | [] => ([], false)
  | ['\\'] => if raw then ([('\\', false)], false) else ([], true)
  | '\\' :: c :: rest =>
    let (more, goesOn) := unquote raw rest
    if raw then
      let (more, goesOn) := unquote raw (c :: rest)
      (('\\', false) :: more, goesOn)
    else ((c, true) :: more, goesOn)
  | c :: rest =>
    let (more, goesOn) := unquote raw rest
    ((c, false) :: more, goesOn)

/-- Reads a line of the standard input and those that it goes on with; false at the end. -/
def readLogical (raw : Bool) : Nat → Action (List (Char × Bool) × Bool)
  | 0 => return ([], false)
  | steps + 1 => do
    match ← readLine 0 with
    | none => return ([], false)
    | some line =>
      let ended := line.getLast? == some '\n'
      let (chars, goesOn) := unquote raw ((if ended then line.dropLast else line).filter (· != '\x00'))
      if goesOn && ended then
        let (more, found) ← readLogical raw steps
        return (chars ++ more, found)
      else return (chars, ended)

def separators (sh : Session) : List Char := (sh.valueOf? "IFS".toList).getD [' ', '\t', '\n']

def read (words : List Octets) : Action Nat := do
  let raw := words.head? == some ['-', 'r']
  let names := if raw then words.drop 1 else words
  let (line, found) ← readLogical raw 1000
  let fields := cutLine (separators (← get).shell) names.length line
  for (name, n) in names.zipIdx do assign name (fields.getD n [])
  return if found then 0 else 1

def limitLetters : List Char := "tfdscmlpnvwr".toList

def ulimit (words : List Octets) : Action Nat := do
  let letters := (words.takeWhile fun word => word.head? == some '-').flatMap (·.drop 1)
  let values := words.dropWhile fun word => word.head? == some '-'
  let letters := letters.filter fun c => c != 'H' && c != 'S'
  match letters.find? fun c => !limitLetters.contains c with
  | some c => refuse (illegalOption '-' c)
  | none =>
    let letter := letters.getLast?.getD 'f'
    let present := (← get).shell.limits.lookup letter
    match values with
    | [] =>
      let shown := match present with
        | some n => decimal n
        | none => "unlimited".toList
      answer "ulimit" (shown ++ ['\n'])
    | value :: _ =>
      let wanted : Option (Option Nat) :=
        if value == "unlimited".toList then some none else (readNat? 10 value).map some
      let exceeds := match present, wanted with
        | some bound, some (some n) => decide (bound < n)
        | some _, some none => true
        | _, _ => false
      match wanted with
      | none => refuse "bad number".toList
      | some wanted =>
        if exceeds then refuse "error setting limit (Operation not permitted)".toList
        else
          modifyShell fun sh => { sh with
            limits := match wanted with
              | some n => insert letter n sh.limits
              | none => sh.limits }
          return 0

def killUsage : Octets :=
  "Usage: kill [-s sigspec | -signum | -sigspec] [pid | job]... or\nkill -l [exitstatus]".toList

def signalOf (words : List Octets) : Except Octets (Nat × List Octets) :=
  let named (name : Octets) (rest : List Octets) : Except Octets (Nat × List Octets) :=
    match Signal.ofText? name with
    | some signal => .ok (signal, if rest.head? == some ['-', '-'] then rest.drop 1 else rest)
    | none => .error ("invalid signal number or name: ".toList ++ name)
  match words with
  | ['-', '-'] :: rest => .ok (Signal.terminate, rest)
  | ('-' :: first :: letters) :: rest =>
    if (Signal.ofText? (first :: letters)).isSome then named (first :: letters) rest
    else if first != 's' then .error (illegalOption '-' first)
    else
      match letters, rest with
      | [], name :: rest => named name rest
      | [], [] => .error "No arg for -s option".toList
      | name, rest => named name rest
  | _ => .ok (Signal.terminate, words)

def kill (words : List Octets) : Action Nat := do
  match words with
  | ['-', 'l'] :: rest =>
    match rest with
    | [] => answer "kill" (("0" :: Signal.names).flatMap fun name => name.toList ++ ['\n'])
    | word :: _ =>
      let n := (readNat? 10 word).getD 0
      answer "kill" ((Signal.name (if n > 128 then n - 128 else n)).toList ++ ['\n'])
  | _ =>
    match signalOf words with
    | .error why => refuse why
    | .ok (_, []) => refuse killUsage
    | .ok (signal, targets) =>
      let mut code := 0
      for word in targets do
        match target? word with
        | some 0 => sendAll signal
        | some pid =>
          if !(← send signal pid) then
            complain "No such process\n".toList
            code := 1
        | none =>
          if (job? (← get).shell word).isSome then
            complain "No such process\n".toList
            code := 1
          else if word.head? == some '%' then code ← refuse ("No such job: ".toList ++ word)
          else code ← refuse ("Illegal number: ".toList ++ word)
      return code

def wait (words : List Octets) : Action Nat := do
  match words with
  | [] =>
    for process in (← get).host.processes do
      if (← get).shell.jobs.contains process.pid then waitUntil process.finish
    reap
    modifyShell fun sh => { sh with jobs := [] }
    return 0
  | _ =>
    let mut code := 0
    for word in words do
      match job? (← get).shell word <|> readNat? 10 word with
      | some pid => code := (← await pid).getD 127
      | none => code ← refuse ("Illegal number: ".toList ++ word)
    return code

def setTrap (action : Option Octets) (signal : Nat) : Action Unit :=
  modifyShell fun sh =>
    match action with
    | some text =>
      if Signal.isTrappable signal then { sh with traps := insert signal text sh.traps } else sh
    | none => { sh with traps := erase signal sh.traps }

def trap (words : List Octets) : Action Nat := do
  let words := if words.head? == some ['-', '-'] then words.drop 1 else words
  let set (action : Option Octets) (signals : List Octets) : Action Nat := do
    let mut code := 0
    for word in signals do
      match Signal.ofText? word with
      | some signal => setTrap action signal
      | none =>
        discard (emit 2 ("trap: ".toList ++ word ++ ": bad trap\n".toList))
        code := 1
    return code
  match words with
  | [] =>
    let traps := (← get).shell.traps.mergeSort fun a b => decide (a.1 ≤ b.1)
    answer "trap" (traps.flatMap fun (signal, text) =>
      "trap -- ".toList ++ quoted text ++ ' ' :: (Signal.name signal).toList ++ ['\n'])
  | first :: rest =>
    if rest.isEmpty || (readNat? 10 first).isSome then set none words
    else if first == ['-'] then set none rest
    else set (some first) rest

def run? (name : String) (words : List Octets) : Option (Action Nat) :=
  match name with
  | ":" | "true" => some (pure 0)
  | "false" => some (pure 1)
  | "echo" => some (echo words)
  | "printf" => some (printf words)
  | "test" => some (condition false words)
  | "[" => some (condition true words)
  | "exit" => some (exit words)
  | "return" => some (leaveCall words)
  | "break" => some (jump .leave words)
  | "continue" => some (jump .next words)
  | "shift" => some (shift words)
  | "set" => some (set words)
  | "unset" => some (unset words)
  | "export" => some (mark name (·.exported) (fun v => { v with exported := true }) words)
  | "readonly" => some (mark name (·.readOnly) (fun v => { v with readOnly := true }) words)
  | "local" => some (declareLocal words)
  | "cd" => some (cd words)
  | "pwd" => some pwd
  | "read" => some (read words)
  | "ulimit" => some (ulimit words)
  | "umask" => some (if words.isEmpty then answer name "0022\n".toList else pure 0)
  | "kill" => some (kill words)
  | "wait" => some (wait words)
  | "trap" => some (trap words)
  | "times" | "alias" | "unalias" | "hash" | "jobs" => some (pure 0)
  | _ => none

def isBuiltin (name : Octets) : Bool :=
  ["eval", ".", "command", "exec", "type"].contains (String.ofList name) ||
    (run? (String.ofList name) []).isSome

end FlagSurvey.Shell.Builtin
